import GraphQLModels.Proofs.DocumentedLines
import GraphQLModels.Proofs.ModuleDocstring

/-!
# Modules without their comments

Nothing about a module depends on what is said about its fields and the values of its enums but the
comments that say it: definitions without descriptions and reasons are filtered and laid out like
those that have them. So whatever a description says, it stands on lines of comments.
-/

namespace GraphQLModels

/-! ## Definitions without what is said about them -/

/-- The field without what is said about it; that it is deprecated remains. -/
def Field.undocumented (f : Field) : Field :=
  { f with description := none, deprecationReason := none }

/-- The value without what is said about it. -/
def EnumValue.undocumented (v : EnumValue) : EnumValue := { name := v.name }

def EnumDef.undocumented (d : EnumDef) : EnumDef :=
  { d with values := d.values.map EnumValue.undocumented }

def ContractDef.undocumented (d : ContractDef) : ContractDef :=
  { d with fields := d.fields.map Field.undocumented }

def ObjectDef.undocumented (d : ObjectDef) : ObjectDef :=
  { d with fields := d.fields.map Field.undocumented }

namespace Definition

/-- The definition without what is said about its fields or values. -/
def undocumented : Definition → Definition
  | .enum d => .enum d.undocumented
  | .contract d => .contract d.undocumented
  | .object d => .object d.undocumented

@[simp] theorem name_undocumented (d : Definition) : d.undocumented.name = d.name := by
  cases d <;> rfl

@[simp] theorem schemaName_undocumented (d : Definition) :
    d.undocumented.schemaName = d.schemaName := by
  cases d <;> rfl

@[simp] theorem without_undocumented (dropped : List String) (d : Definition) :
    d.undocumented.without dropped = (d.without dropped).undocumented := by
  cases d <;> rfl

variable (definitions : List Definition)

@[simp] theorem enums_undocumented :
    (definitions.map undocumented).filterMap enum? =
      (definitions.filterMap enum?).map EnumDef.undocumented := by
  rw [List.filterMap_map, List.map_filterMap]
  exact List.filterMap_congr fun d _ => by cases d <;> rfl

@[simp] theorem contracts_undocumented :
    (definitions.map undocumented).filterMap contract? =
      (definitions.filterMap contract?).map ContractDef.undocumented := by
  rw [List.filterMap_map, List.map_filterMap]
  exact List.filterMap_congr fun d _ => by cases d <;> rfl

@[simp] theorem objects_undocumented :
    (definitions.map undocumented).filterMap object? =
      (definitions.filterMap object?).map ObjectDef.undocumented := by
  rw [List.filterMap_map, List.map_filterMap]
  exact List.filterMap_congr fun d _ => by cases d <;> rfl

end Definition

/-- The module without what is said about its fields and the values of its enums. -/
def Module.undocumented (m : Module) : Module :=
  { m with definitions := m.definitions.map Definition.undocumented }

/-! ## The order of contracts -/

namespace Contract

section

variable (change : ContractDef → ContractDef) (names : ∀ c, (change c).name = c.name)
  (parents : ∀ c, (change c).parents = c.parents)

/-- What has been done so far, with contracts that have been changed. -/
def Placed.map (change : ContractDef → ContractDef) (state : Placed) : Placed :=
  { state with ordered := state.ordered.map change }

include names in
theorem lookup?_map (contracts : List ContractDef) (name : String) :
    lookup? (contracts.map change) name = (lookup? contracts name).map change := by
  simp only [lookup?, ← List.map_reverse, List.find?_map, Function.comp_def, names]

/-- A list of contracts is placed as its contracts are. -/
theorem foldl_place_map (contracts : List ContractDef) (fuel : Nat)
    (each : ∀ state c, place (contracts.map change) fuel (Placed.map change state) (change c) =
      (place contracts fuel state c).map change) (rest : List ContractDef) (state : Placed) :
    (rest.map change).foldl (place (contracts.map change) fuel) (state.map change) =
      (rest.foldl (place contracts fuel) state).map change := by
  rw [List.foldl_map]
  exact List.foldl_hom (Placed.map change) each

include names parents

/-- Contracts are placed by their names and parents, whatever else is changed. -/
theorem place_map (contracts : List ContractDef) (fuel : Nat) (state : Placed) (c : ContractDef) :
    place (contracts.map change) fuel (state.map change) (change c) =
      (place contracts fuel state c).map change := by
  induction fuel generalizing state c with
  | zero => rfl
  | succ fuel ih =>
    have above : c.parents.filterMap (lookup? (contracts.map change)) =
        (c.parents.filterMap (lookup? contracts)).map change := by
      rw [List.map_filterMap]
      exact List.filterMap_congr fun name _ => lookup?_map change names contracts name
    have placed := foldl_place_map change contracts fuel ih (c.parents.filterMap (lookup? contracts))
      { state with entered := c.name :: state.entered }
    rw [place_succ, place_succ, names, parents, above]
    by_cases old : c.name ∈ state.entered
    · rw [if_pos old]
      exact if_pos old
    · rw [if_neg old]
      refine (if_neg old).trans ?_
      dsimp only [Placed.map] at placed ⊢
      rw [placed, List.map_append]
      rfl

theorem ordered_map (contracts : List ContractDef) :
    ordered (contracts.map change) = (ordered contracts).map change := by
  have placed := foldl_place_map change contracts (contracts.length + 1)
    (place_map change names parents contracts _) contracts {}
  rw [ordered, List.length_map]
  exact congrArg Placed.ordered placed

theorem ancestors_map (contracts : List ContractDef) :
    ancestors (contracts.map change) = ancestors contracts := by
  have same : ∀ known c, Ancestors.add known (change c) = Ancestors.add known c := by
    intro known c
    rw [Ancestors.add, Ancestors.add, names, parents]
  rw [ancestors, ancestors, List.foldl_map]
  simp only [same]

end

end Contract

/-! ## Laying out -/

/-- A traversal of changed items gives changed values. -/
theorem Outcome.mapM_map_comm {ε α β γ δ : Type} (f : α → Except ε β) (g : γ → Except ε δ)
    (change : α → γ) (change' : β → δ) (each : ∀ x, g (change x) = (f x).map change')
    (xs : List α) : (xs.map change).mapM g = (xs.mapM f).map (List.map change') := by
  induction xs with
  | nil => rfl
  | cons x xs ih =>
    rw [List.map_cons, List.mapM_cons, List.mapM_cons, each, ih]
    cases f x with
    | error e => rfl
    | ok y => cases xs.mapM f <;> rfl

namespace Source

/-- The context of definitions without what is said about them. -/
def Context.undocumented (ctx : Context) : Context :=
  { ctx with definitions := ctx.definitions.map Definition.undocumented }

section

variable (ctx : Context)

@[simp] theorem Context.enumNames_undocumented : ctx.undocumented.enumNames = ctx.enumNames := by
  simp only [enumNames, undocumented, Definition.enums_undocumented, List.map_map]
  rfl

@[simp] theorem Context.defines_undocumented (name : String) :
    ctx.undocumented.defines name = ctx.defines name := by
  simp only [defines, undocumented, List.any_map, Function.comp_def, Definition.name_undocumented]

@[simp] theorem scalarReference?_undocumented (type : FieldType) :
    scalarReference? ctx.undocumented type = scalarReference? ctx type := by
  rw [scalarReference?, scalarReference?, Context.enumNames_undocumented]

@[simp] theorem referenceName_undocumented (type : FieldType) :
    referenceName ctx.undocumented type = referenceName ctx type := by
  rw [referenceName, referenceName, scalarReference?_undocumented]
  rfl

@[simp] theorem typeImport?_undocumented (type : FieldType) :
    typeImport? ctx.undocumented type = typeImport? ctx type := by
  rw [typeImport?, typeImport?, scalarReference?_undocumented]
  rfl

@[simp] theorem nodeReference_undocumented (target : String) :
    nodeReference ctx.undocumented target = nodeReference ctx target := by
  rw [nodeReference, nodeReference, Context.defines_undocumented]
  rfl

theorem attributeOf_undocumented (f : Field) :
    attributeOf ctx.undocumented f.undocumented =
      (attributeOf ctx f).map Attribute.undocumented := by
  obtain ⟨name, type, description, isDeprecated, reason, readOnly⟩ := f
  cases name with
  | none => rfl
  | some name =>
    simp only [attributeOf, Field.undocumented, referenceName_undocumented]
    cases referenceName ctx type with
    | error e => rfl
    | ok reference => cases isDeprecated <;> rfl

theorem member_undocumented (v : EnumValue) :
    member v.undocumented = (member v).map Member.undocumented := by
  obtain ⟨name, description, isDeprecated, reason⟩ := v
  cases name <;> rfl

theorem enumClass_undocumented (d : EnumDef) :
    enumClass d.undocumented = (enumClass d).map EnumClass.undocumented := by
  have members := Outcome.mapM_map_comm member member EnumValue.undocumented Member.undocumented
    member_undocumented d.values
  simp only [enumClass, EnumDef.undocumented, members]
  cases d.values.mapM member <;> rfl

theorem attributes_undocumented (fields : List Field) :
    (fields.map Field.undocumented).mapM (attributeOf ctx.undocumented) =
      (fields.mapM (attributeOf ctx)).map (List.map Attribute.undocumented) :=
  Outcome.mapM_map_comm _ _ _ _ (attributeOf_undocumented ctx) fields

theorem contractClass_undocumented (ancestors : Contract.Ancestors) (d : ContractDef) :
    contractClass ctx.undocumented ancestors d.undocumented =
      (contractClass ctx ancestors d).map ContractClass.undocumented := by
  simp only [contractClass, ContractDef.undocumented, attributes_undocumented]
  cases d.fields.mapM (attributeOf ctx) <;> rfl

theorem objectClass_undocumented (ancestors : Contract.Ancestors) (d : ObjectDef) :
    objectClass ctx.undocumented ancestors d.undocumented =
      (objectClass ctx ancestors d).map ObjectClass.undocumented := by
  have classVariables : capabilityVariables ctx.undocumented = capabilityVariables ctx := by
    funext c
    rw [capabilityVariables, capabilityVariables, nodeReference_undocumented]
  simp only [objectClass, ObjectDef.undocumented, attributes_undocumented, classVariables]
  cases d.fields.mapM (attributeOf ctx) <;> rfl

theorem neededImports_undocumented (contracts : List ContractDef) (objects : List ObjectDef) :
    neededImports ctx.undocumented (contracts.map ContractDef.undocumented)
      (objects.map ObjectDef.undocumented) = neededImports ctx contracts objects := by
  have types : ∀ fields : List Field,
      (fields.map Field.undocumented).filterMap (fun f => typeImport? ctx f.type) =
        fields.filterMap fun f => typeImport? ctx f.type :=
    fun _ => List.filterMap_map
  simp only [neededImports, typeImport?_undocumented, nodeReference_undocumented,
    List.filterMap_append, List.filterMap_flatMap, List.flatMap_map, ContractDef.undocumented,
    ObjectDef.undocumented, types]

end

/-- Definitions without what is said about them are laid out to the module without it. -/
theorem layOut_undocumented (title : String) (imports : ImportTable)
    (definitions : List Definition) :
    layOut title imports (definitions.map Definition.undocumented) =
      (layOut title imports definitions).map Module.undocumented := by
  have order := Contract.ordered_map ContractDef.undocumented (fun _ => rfl) (fun _ => rfl)
  have ancestors := Contract.ancestors_map ContractDef.undocumented (fun _ => rfl) (fun _ => rfl)
  have context : ({ imports, definitions := definitions.map Definition.undocumented } : Context) =
      ({ imports, definitions } : Context).undocumented := rfl
  unfold layOut
  dsimp only
  rw [Definition.contracts_undocumented, Definition.objects_undocumented,
    Definition.enums_undocumented, order, ancestors, context, neededImports_undocumented,
    Outcome.mapM_map_comm _ _ _ _ (contractClass_undocumented _ _),
    Outcome.mapM_map_comm _ _ _ _ (objectClass_undocumented _ _),
    Outcome.mapM_map_comm _ _ _ _ enumClass_undocumented, List.map_map]
  generalize Contract.ordered (definitions.filterMap Definition.contract?) = contracts
  cases contracts.mapM (contractClass { imports, definitions } (Contract.ancestors contracts)) with
  | error e => rfl
  | ok contractClasses =>
    cases (definitions.filterMap Definition.object?).mapM
        (objectClass { imports, definitions } (Contract.ancestors contracts)) with
    | error e => rfl
    | ok objectClasses =>
      cases (definitions.filterMap Definition.enum?).mapM enumClass <;> rfl

end Source

/-! ## Filters -/

namespace NameFilter

variable (f : NameFilter) (definitions : List Definition)

@[simp] theorem keepsDefinition_undocumented (d : Definition) :
    f.keepsDefinition d.undocumented = f.keepsDefinition d := by
  rw [keepsDefinition, keepsDefinition, Definition.schemaName_undocumented]

theorem filter_undocumented :
    (definitions.map Definition.undocumented).filter f.keepsDefinition =
      (definitions.filter f.keepsDefinition).map Definition.undocumented := by
  simp only [List.filter_map, Function.comp_def, keepsDefinition_undocumented]

theorem dropped_undocumented :
    f.dropped (definitions.map Definition.undocumented) = f.dropped definitions := by
  have kept : ((definitions.map Definition.undocumented).filter f.keepsDefinition).filterMap
      Definition.name = (definitions.filter f.keepsDefinition).filterMap Definition.name := by
    rw [filter_undocumented, List.filterMap_map]
    exact List.filterMap_congr fun d _ => d.name_undocumented
  have classes : ((definitions.filterMap Definition.object?).map ObjectDef.undocumented).filterMap
      (·.name) = (definitions.filterMap Definition.object?).filterMap (·.name) := List.filterMap_map
  rw [dropped, dropped, kept, Definition.objects_undocumented, classes]

theorem run_undocumented :
    f.run (definitions.map Definition.undocumented) =
      (f.run definitions).map Definition.undocumented := by
  simp only [run, filter_undocumented, dropped_undocumented, List.map_map, Function.comp_def,
    Definition.without_undocumented]

theorem applies_undocumented :
    f.applies (definitions.map Definition.undocumented) = f.applies definitions := by
  simp only [applies, List.all_map, Function.comp_def, Definition.schemaName_undocumented]

end NameFilter

theorem Hook.runFilters_undocumented (hooks : List Hook) (definitions : List Definition) :
    runFilters hooks (definitions.map Definition.undocumented) =
      (runFilters hooks definitions).map Definition.undocumented :=
  List.foldl_hom (List.map Definition.undocumented)
    fun kept f => f.run_undocumented kept

/-- A module without what is said about it is rendered from the source without it. -/
theorem Module.source_undocumented (m : Module) (setup : Setup) :
    m.undocumented.source setup = (m.source setup).map Source.Module.undocumented := by
  have filters : Hook.canFilter setup.hooks (m.definitions.map Definition.undocumented) =
      Hook.canFilter setup.hooks m.definitions := by
    simp only [Hook.canFilter, NameFilter.applies_undocumented]
  simp only [source, undocumented, filters, Hook.runFilters_undocumented,
    Source.layOut_undocumented]
  split <;> rfl

/-! ## Comments of a rendered module -/

/-- **Comments stay on one line.** The text of a comment has no line break of any kind and no
asterisk, single spaces between its words, and at most 120 characters; a text that is like this is
left as it is, and no other is. In a rendered module whatever is said about a field or a value of an
enum stands on lines of comments, and the reason for a deprecation also within the line of its
attribute: all other lines are those of the module about which nothing is said. -/
theorem comments_stay_on_one_line :
    (∀ text, Text.IsCommentLine (Text.comment text) ∧
      Text.comment (Text.comment text) = Text.comment text ∧
      (Text.comment text = text ↔ Text.IsCommentLine text)) ∧
    ∀ (m : Module) (imports : ImportTable) (hooks : List Hook) (filename text : String),
      m.render { imports, hooks } filename = .ok text →
      ∃ plain, m.undocumented.source { imports, hooks } = .ok plain ∧
        Source.Documents (Text.lines text) (Text.lines (Hook.runHeaders hooks plain.text)) := by
  refine ⟨fun text => ?_, fun m imports hooks filename text rendered => ?_⟩
  · have line := Text.comment_isCommentLine text
    exact ⟨line, line.comment_eq, Text.comment_eq_iff text⟩
  · obtain ⟨source, laidOut, rfl, -⟩ := render_builtIn m _ rfl filename text rendered
    refine ⟨source.undocumented, ?_, ?_⟩
    · rw [Module.source_undocumented, laidOut]
      rfl
    · rw [Hook.runHeaders_append, Hook.runHeaders_append _ source.undocumented.text]
      exact (source.text_annotates _).documents

/-! ## A palette -/

/-- What is said of a colour: words on two lines, the second of which would be a statement. -/
def redDescription : String := "warm\n  **import** os"

/-- Why the colour is deprecated, with breaks of several kinds. -/
def redReason : String := "see\r\nblue,\u2028say"

def palette : Module where
  moduleName := "palette"
  definitions := [.enum {
    name := some "Color"
    values := [{
      name := some "RED", description := some redDescription, isDeprecated := true
      deprecationReason := some redReason }] }]

def paletteSource : Source.Module where
  title := "palette"
  imports := []
  enums := [{
    name := some "Color", description := none, stringConstants := false
    members := [{
      name := "RED", constant := "RED", value := "RED", description := some redDescription
      deprecation := some redReason }] }]
  contracts := []
  objects := []
  aliases := []

theorem palette_isWellFormed : Source.isWellFormed paletteSource.text = true := by
  -- The characters of a long text are slow to read off, so they are read part by part.
  unfold Source.isWellFormed Source.tokens? Source.normalise Source.Module.text
    Source.Module.headText paletteSource
  simp only [String.contains_char_eq, String.toList_append, Text.toList_of_eq rfl]
  decide +kernel

theorem palette_rendered : palette.render {} "palette.py" = .ok paletteSource.text := by
  have laidOut : palette.source {} = .ok paletteSource := source_of_sorted _ _ _ rfl rfl
  rw [Module.render, laidOut]
  exact if_pos palette_isWellFormed

/-- A description that would be a statement on a line of its own, and a reason with breaks. -/
theorem comments_stay_on_one_line_palette :
    Text.comment redDescription = "warm import os" ∧
    Text.comment redReason = "see blue, say" ∧
    ∃ plain, palette.undocumented.source {} = .ok plain ∧
      Source.Documents (Text.lines paletteSource.text)
        (Text.lines (Hook.runHeaders [] plain.text)) :=
  ⟨by decide, by decide,
    comments_stay_on_one_line.2 palette .initial [] "palette.py" _ palette_rendered⟩

end GraphQLModels
