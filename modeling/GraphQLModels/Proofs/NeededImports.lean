import GraphQLModels.Proofs.ScalarImports
import Mathlib.Data.String.Basic

/-!
# Needed imports

A laid-out module imports the statements that the scalar targets of its fields and node types resolve
to, sorted and each once, and nothing else. Every import comes from a name that the module writes in
an annotation or for a node type, and every such name of a target has its import. Only a statement
without any text is left out.
-/

namespace GraphQLModels

/-! ## Sorted lists without repetition -/

theorem eraseDups_sublist {α : Type} [BEq α] [LawfulBEq α] (xs : List α) :
    xs.eraseDups.Sublist xs := by
  -- What is left behind the first item is filtered before the rest is looked at, so the induction is
  -- on the length.
  induction h : xs.length using Nat.strongRecOn generalizing xs with
  | ind length ih =>
    cases xs with
    | nil => exact List.Sublist.refl _
    | cons x xs =>
      have shorter : (xs.filter fun y => !y == x).length < length := by
        rw [← h]
        exact Nat.lt_succ_of_le (List.length_filter_le _ _)
      rw [List.eraseDups_cons]
      exact ((ih _ shorter _ rfl).trans List.filter_sublist).cons_cons x

/-- Sorted texts without repetition are increasing. -/
theorem sorted_increasing (texts : List String) :
    (texts.mergeSort fun a b => a ≤ b).eraseDups.Pairwise (· < ·) := by
  have sorted : (texts.mergeSort fun a b => a ≤ b).Pairwise fun a b => decide (a ≤ b) = true := by
    refine List.pairwise_mergeSort (fun a b c first second => ?_) (fun a b => ?_) texts
    · exact decide_eq_true (le_trans (of_decide_eq_true first) (of_decide_eq_true second))
    · simpa using le_total a b
  refine ((sorted.sublist (eraseDups_sublist _)).and (eraseDups_nodup _)).imp ?_
  rintro a b ⟨le, other⟩
  exact lt_of_le_of_ne (of_decide_eq_true le) other

namespace Source

/-! ## Targets that occur -/

/-- Whether a field type has a target at its bottom, below any number of lists: a scalar's, or a name
in place of an enum that no rendered enum has. -/
inductive HasTarget (definitions : List Definition) (type : FieldType) (target : String) : Prop
  | scalar (kind : type.terminalKind = .scalar) (name : type.terminalName = some target)
  | enum (kind : type.terminalKind = .enum) (name : type.terminalName = some target)
      (unlisted : ∀ d, .enum d ∈ definitions → d.name ≠ some target)

/-- Whether a target occurs: below a field of a rendered contract or class, or as a node type that
names no rendered definition. -/
inductive Occurs (definitions : List Definition) (target : String) : Prop
  | field {d : Definition} {f : Field} (rendered : d ∈ classDefinitions definitions)
      (held : f ∈ d.fields) (has : HasTarget definitions f.type target)
  | node {o : ObjectDef} {c : Capability} (rendered : .object o ∈ definitions)
      (capable : c ∈ o.capabilities) (named : c.nodeType = target)
      (undefined : ∀ d ∈ definitions, d.name ≠ some target)

theorem mem_enumNames (ctx : Context) (name : Option String) :
    name ∈ ctx.enumNames ↔ ∃ d, .enum d ∈ ctx.definitions ∧ d.name = name := by
  simp only [Context.enumNames, List.mem_map, List.mem_filterMap]
  constructor
  · rintro ⟨d, ⟨e, listed, isEnum⟩, named⟩
    cases e <;> cases isEnum
    exact ⟨d, listed, named⟩
  · rintro ⟨d, listed, named⟩
    exact ⟨d, ⟨_, listed, rfl⟩, named⟩

theorem hasTarget_iff (ctx : Context) (type : FieldType) (target : String) :
    HasTarget ctx.definitions type target ↔ scalarReference? ctx type = some (some target) := by
  unfold scalarReference?
  constructor
  · rintro (⟨kind, name⟩ | ⟨kind, name, unlisted⟩)
    · rw [kind, name]
    · have absent : ctx.enumNames.contains (some target) = false := by
        refine Bool.eq_false_iff.mpr fun listed => ?_
        obtain ⟨d, isEnum, named⟩ := (mem_enumNames ctx _).mp (List.contains_iff_mem.mp listed)
        exact unlisted d isEnum named
      simp only [kind, name, absent, Bool.false_eq_true, if_false]
  · intro refers
    split at refers
    · rename_i kind
      exact .scalar kind (Option.some.inj refers)
    · rename_i kind
      split at refers
      · cases refers
      · rename_i absent
        have name := Option.some.inj refers
        refine .enum kind name fun d listed named => absent ?_
        exact List.contains_iff_mem.mpr ((mem_enumNames ctx _).mpr ⟨d, listed, named.trans name.symm⟩)
    · cases refers

theorem defines_eq_false_iff (ctx : Context) (name : String) :
    ctx.defines name = false ↔ ∀ d ∈ ctx.definitions, d.name ≠ some name := by
  simp [Context.defines]

theorem occurs_iff (ctx : Context) (target : String) :
    Occurs ctx.definitions target ↔ ctx.Refers target := by
  constructor
  · rintro (⟨rendered, held, has⟩ | ⟨rendered, capable, named, undefined⟩)
    · exact .field rendered held ((hasTarget_iff ctx _ target).mp has)
    · exact .node rendered capable named ((defines_eq_false_iff ctx target).mpr undefined)
  · rintro (⟨rendered, held, scalar⟩ | ⟨rendered, capable, named, undefined⟩)
    · exact .field rendered held ((hasTarget_iff ctx _ target).mpr scalar)
    · exact .node rendered capable named ((defines_eq_false_iff ctx target).mp undefined)

/-! ## Names that are written -/

/-- Whether a module writes a name for a type: in an annotation, or as the node type of a class. -/
inductive Module.Writes (m : Module) (name : String) : Prop
  | typed {c : Model.ClassSource} {a : Attribute} (isClass : c ∈ Model.classSources m)
      (isAttribute : a ∈ c.attributes) (named : a.type.terminal = name)
  | node {k : ObjectClass} (isClass : k ∈ m.objects)
      (isNode : ⟨"node_type_name", name⟩ ∈ k.classVariables)

/-- Whether a name is one of the schema's types or of the definitions, and no target. -/
inductive IsOwnName (definitions : List Definition) (name : String) : Prop
  | type {d : Definition} {f : Field} (rendered : d ∈ classDefinitions definitions)
      (held : f ∈ d.fields) (none : ∀ target, ¬HasTarget definitions f.type target)
      (named : name = nameText f.type.terminalName ∨
        name = nameText f.type.terminalName ++ aliasSuffix)
  | definition {d : Definition} (defined : d ∈ definitions) (named : d.name = some name)

/-- A target is written as it resolves. -/
theorem referenceName_of_target (ctx : Context) (type : FieldType) (target : String)
    (has : HasTarget ctx.definitions type target) :
    referenceName ctx type = .ok (ctx.imports.resolve target).1 := by
  rw [referenceName, (hasTarget_iff ctx type target).mp has]

/-- What is written for a field type without a target is the name of a type, perhaps that of an
alias. -/
theorem referenceName_own (ctx : Context) (type : FieldType) (reference : String)
    (none : ∀ target, ¬HasTarget ctx.definitions type target)
    (refers : referenceName ctx type = .ok reference) :
    reference = nameText type.terminalName ∨
      reference = nameText type.terminalName ++ aliasSuffix := by
  unfold referenceName at refers
  split at refers
  · rename_i target scalar
    exact absurd ((hasTarget_iff ctx type target).mpr scalar) (none target)
  · cases refers
  · split at refers <;> cases refers
    · exact .inr rfl
    · exact .inr rfl
    · exact .inl rfl

variable {imports : ImportTable} {definitions : List Definition} {m : Module}

/-- The target of a field stands in an annotation of the module. -/
theorem LaysOut.writes_field (laysOut : LaysOut imports definitions m) (d : Definition)
    (rendered : d ∈ classDefinitions definitions) (f : Field) (held : f ∈ d.fields)
    (target : String) (has : HasTarget definitions f.type target) :
    m.Writes (imports.resolve target).1 := by
  obtain ⟨c, isClass, ofDefinition⟩ := Outcome.forall₂_left laysOut.classes d rendered
  obtain ⟨a, isAttribute, made⟩ := Outcome.mapM_mem _ _ _ ofDefinition.spec.2 f held
  obtain ⟨-, -, reference, refers, typed⟩ := attributeOf_ok _ f a made
  have written := referenceName_of_target { imports, definitions } f.type target has
  cases written.symm.trans refers
  exact .typed isClass isAttribute (by rw [typed, Model.terminal_nullableType])

/-- The class of an object has the variables of its capabilities. -/
theorem LaysOut.classVariables (laysOut : LaysOut imports definitions m) :
    List.Forall₂ (fun (o : ObjectDef) (k : ObjectClass) => k.classVariables =
      o.capabilities.flatMap (capabilityVariables { imports, definitions }))
      (definitions.filterMap Definition.object?) m.objects := by
  refine ((Outcome.mapM_ok_iff _ _ _).mp laysOut.objects).imp fun o k made => ?_
  obtain ⟨attributes, -, given⟩ := (Outcome.bind_ok_iff _ _ _).mp made
  cases given
  rfl

/-- The target of a node type stands in a class of the module. -/
theorem LaysOut.writes_node (laysOut : LaysOut imports definitions m) (o : ObjectDef)
    (rendered : .object o ∈ definitions) (c : Capability) (capable : c ∈ o.capabilities)
    (undefined : ∀ d ∈ definitions, d.name ≠ some c.nodeType) :
    m.Writes (imports.resolve c.nodeType).1 := by
  have listed : o ∈ definitions.filterMap Definition.object? :=
    List.mem_filterMap.mpr ⟨_, rendered, rfl⟩
  obtain ⟨k, isClass, holds⟩ := Outcome.forall₂_left laysOut.classVariables o listed
  have resolved : nodeReference { imports, definitions } c.nodeType =
      imports.resolve c.nodeType := by
    rw [nodeReference, (defines_eq_false_iff _ _).mpr undefined]
    rfl
  refine .node isClass ?_
  rw [holds, ← resolved]
  exact List.mem_flatMap.mpr ⟨c, capable, List.mem_cons_self⟩

theorem LaysOut.writes_target (laysOut : LaysOut imports definitions m) (target : String)
    (occurs : Occurs definitions target) : m.Writes (imports.resolve target).1 := by
  cases occurs with
  | field rendered held has => exact laysOut.writes_field _ rendered _ held target has
  | node rendered capable named undefined =>
    subst named
    exact laysOut.writes_node _ rendered _ capable undefined

/-- Every name that is written is that of a target, of a type or of a definition. -/
theorem LaysOut.written_cases (laysOut : LaysOut imports definitions m) (name : String)
    (writes : m.Writes name) :
    (∃ target, Occurs definitions target ∧ (imports.resolve target).1 = name) ∨
      IsOwnName definitions name := by
  cases writes with
  | @typed c a isClass isAttribute named =>
    obtain ⟨d, rendered, ofDefinition⟩ := Outcome.forall₂_right laysOut.classes c isClass
    obtain ⟨f, held, made⟩ := Outcome.mapM_from _ _ _ ofDefinition.spec.2 a isAttribute
    obtain ⟨-, -, reference, refers, typed⟩ := attributeOf_ok _ f a made
    rw [typed, Model.terminal_nullableType] at named
    subst named
    -- What has no target is referred to by the name of its type, which needs no import.
    by_cases scalar : ∃ target, HasTarget definitions f.type target
    · obtain ⟨target, has⟩ := scalar
      have written := referenceName_of_target { imports, definitions } f.type target has
      cases written.symm.trans refers
      exact .inl ⟨target, .field rendered held has, rfl⟩
    · have none := not_exists.mp scalar
      exact .inr (.type rendered held none
        (referenceName_own { imports, definitions } f.type reference none refers))
  | @node k isClass isNode =>
    obtain ⟨o, listed, holds⟩ := Outcome.forall₂_right laysOut.classVariables k isClass
    rw [holds] at isNode
    obtain ⟨c, capable, among⟩ := List.mem_flatMap.mp isNode
    obtain ⟨e, rendered, isObject⟩ := List.mem_filterMap.mp listed
    cases e <;> cases isObject
    have value : name = (nodeReference { imports, definitions } c.nodeType).1 := by
      rcases List.mem_cons.mp among with first | edge
      · exact congrArg ClassVariable.value first
      · -- The variable of an edge type has another name.
        obtain ⟨edge, -, same⟩ := Option.map_eq_some_iff.mp (Option.mem_toList.mp edge)
        have kinds : "edge_type_name" = "node_type_name" := congrArg ClassVariable.name same
        exact absurd kinds (by decide)
    subst value
    by_cases undefined : ∀ d ∈ definitions, d.name ≠ some c.nodeType
    · refine .inl ⟨c.nodeType, .node rendered capable rfl undefined, ?_⟩
      rw [nodeReference, (defines_eq_false_iff _ _).mpr undefined]
      rfl
    · have defined : Context.defines { imports, definitions } c.nodeType = true :=
        Bool.eq_true_of_not_eq_false (mt (defines_eq_false_iff _ _).mp undefined)
      simp only [not_forall, not_not] at undefined
      obtain ⟨d, listed, named⟩ := undefined
      refine .inr (.definition listed ?_)
      rw [nodeReference, if_pos defined]
      exact named

/-! ## The imports of a module -/

/-- Whether a module imports what its targets need and nothing else. -/
structure ImportsExactly (imports : ImportTable) (definitions : List Definition) (m : Module) :
    Prop where
  increasing : m.imports.Pairwise (· < ·)
  mem_iff : ∀ statement, statement ∈ m.imports ↔ statement ≠ "" ∧
    ∃ target, Occurs definitions target ∧ (imports.resolve target).2 = some statement
  /-- No import is unused. -/
  used : ∀ statement ∈ m.imports, ∃ target,
    (imports.resolve target).2 = some statement ∧ m.Writes (imports.resolve target).1
  /-- What is written for a type is a target or no concern of imports. -/
  written : ∀ name, m.Writes name →
    (∃ target, Occurs definitions target ∧ (imports.resolve target).1 = name) ∨
      IsOwnName definitions name
  dotted : ∀ path last, '.' ∉ last.toList → Occurs definitions (path ++ "." ++ last) →
    "from " ++ path ++ " import " ++ last ∈ m.imports ∧ m.Writes last
  registered : ∀ target statement, '.' ∉ target.toList → target ∉ builtinNames →
    imports.find? target = some statement → statement ≠ "" → Occurs definitions target →
    statement ∈ m.imports ∧ m.Writes target

theorem resolve_plain (target : String) (plain : '.' ∉ target.toList)
    (new : target ∉ builtinNames) : imports.resolve target = (target, imports.find? target) := by
  have whole : Text.splitLast '.' target = none := by
    cases split : Text.splitLast '.' target with
    | none => rfl
    | some parts =>
      have within := ((Text.splitLast_iff '.' target parts.1 parts.2).mp split).1
      exact absurd (by rw [within]; simp) plain
  rw [ImportTable.resolve, whole]
  simp [new]

theorem layOut_increasing (title : String) (laidOut : layOut title imports definitions = .ok m) :
    m.imports.Pairwise (· < ·) := by
  obtain ⟨contracts, -, given⟩ := (Outcome.bind_ok_iff _ _ _).mp laidOut
  obtain ⟨objects, -, given⟩ := (Outcome.bind_ok_iff _ _ _).mp given
  obtain ⟨enums, -, given⟩ := (Outcome.bind_ok_iff _ _ _).mp given
  cases given
  exact sorted_increasing _

/-- **Needed imports.** The imports of a laid-out module are increasing, and they are the statements
that its targets resolve to, less one without text: those of the fields of its contracts and classes
at any depth of lists, and of the node types that name none of its definitions. So no import is
unused, and each dotted target and each registered one that is not built in has its import. -/
theorem imports_exact (title : String) (imports : ImportTable) (definitions : List Definition)
    (m : Module) (laidOut : layOut title imports definitions = .ok m) :
    ImportsExactly imports definitions m := by
  have laysOut := layOut_ok title imports definitions m laidOut
  obtain ⟨-, needed⟩ := layOut_imports title imports definitions m laidOut
  -- The laid-out imports are those that are needed, and what is needed occurs in a class.
  have mem_iff : ∀ statement, statement ∈ m.imports ↔ statement ≠ "" ∧
      ∃ target, Occurs definitions target ∧ (imports.resolve target).2 = some statement := by
    intro statement
    rw [needed]
    constructor
    · rintro ⟨target, refers, resolved, given⟩
      exact ⟨given, target, (occurs_iff _ _).mpr refers, resolved⟩
    · rintro ⟨given, target, occurs, resolved⟩
      exact ⟨target, (occurs_iff _ _).mp occurs, resolved, given⟩
  refine ⟨layOut_increasing title laidOut, mem_iff, ?used, laysOut.written_cases, ?dotted,
    ?registered⟩
  case used =>
    intro statement isImport
    obtain ⟨-, target, occurs, resolved⟩ := (mem_iff statement).mp isImport
    exact ⟨target, resolved, laysOut.writes_target target occurs⟩
  case dotted =>
    intro path last isLast occurs
    have writes := laysOut.writes_target _ occurs
    have resolved := imports.resolve_dotted path last isLast
    rw [resolved] at writes
    exact ⟨(mem_iff _).mpr ⟨by simp, _, occurs, by rw [resolved]⟩, writes⟩
  case registered =>
    intro target statement plain new found given occurs
    have writes := laysOut.writes_target target occurs
    have resolved : imports.resolve target = (target, imports.find? target) :=
      resolve_plain target plain new
    rw [resolved] at writes
    exact ⟨(mem_iff _).mpr ⟨given, target, occurs, by rw [resolved, found]⟩, writes⟩

/-! ## A ledger -/

/-- An object that has amounts in lists of lists and gives amounts as the nodes of a connection. -/
def ledgerDefinition : Definition :=
  .object {
    name := some "Ledger", schemaName := some "Ledger"
    capabilities := [⟨.nodes, "decimal.Decimal", none⟩]
    fields := [{
      name := some "totals", type := .list (.list (.named (some "decimal.Decimal") .scalar)) }] }

def ledgerModule : Module where
  title := "ledgers"
  imports := ["from decimal import Decimal"]
  enums := []
  contracts := []
  objects := [{
    name := some "Ledger", schemaName := some "Ledger", description := none
    bases := [.capability .nodes, .model]
    classVariables := [⟨"node_type_name", "Decimal"⟩]
    attributes := [{
      name := "totals"
      type := .optional (.list (.optional (.list (.optional (.name "Decimal"))))) }] }]
  aliases := []

theorem ledger_laidOut : layOut "ledgers" .initial [ledgerDefinition] = .ok ledgerModule := by
  have laidOut : layOut "ledgers" .initial [ledgerDefinition] = .ok { ledgerModule with
      imports := (["from decimal import Decimal", "from decimal import Decimal"].mergeSort
        fun a b => a ≤ b).eraseDups } := by
    rfl
  rw [laidOut, List.mergeSort_of_pairwise (by simp)]
  rfl

/-- One import for a target that occurs twice. -/
theorem imports_exact_ledger :
    ["from decimal import Decimal"].Pairwise (· < ·) ∧ ledgerModule.Writes "Decimal" := by
  have exactly := imports_exact "ledgers" .initial [ledgerDefinition] ledgerModule ledger_laidOut
  have occurs : Occurs [ledgerDefinition] ("decimal" ++ "." ++ "Decimal") :=
    .field List.mem_cons_self List.mem_cons_self (.scalar rfl rfl)
  exact ⟨exactly.increasing, (exactly.dotted "decimal" "Decimal" (by decide) occurs).2⟩

/-- A target may be registered with a statement that is empty, and then has no import. -/
theorem import_may_be_empty :
    ¬∀ (title : String) (imports : ImportTable) (definitions : List Definition) (m : Module),
      layOut title imports definitions = .ok m → ∀ target, Occurs definitions target →
      ∀ statement, (imports.resolve target).2 = some statement → statement ∈ m.imports := by
  intro complete
  have laidOut : layOut "invoices" (ImportTable.initial.register "Money" "")
      [.object {
        name := some "Invoice", schemaName := some "Invoice"
        fields := [{ name := some "total", type := .named (some "Money") .scalar }] }] = .ok {
      title := "invoices", imports := ([].mergeSort fun a b => a ≤ b).eraseDups, enums := []
      contracts := [], aliases := []
      objects := [{
        name := some "Invoice", schemaName := some "Invoice", description := none, bases := [.model]
        classVariables := []
        attributes := [{ name := "total", type := .optional (.name "Money") }] }] } := by
    rfl
  have isImport := complete _ _ _ _ laidOut "Money"
    (.field List.mem_cons_self List.mem_cons_self (.scalar rfl rfl)) "" rfl
  rw [List.mergeSort_nil] at isImport
  cases isImport

end Source

end GraphQLModels
