import GraphQLModels.Proofs.ContractShapes

/-!
# Fields of contracts

The type of a field that refers to a contract names the alias of the contract, which is unbound as
long as classes are loaded. The type is therefore left for later, when the alias is bound to the
possible types, unless an attribute of the class hides the alias.
-/

namespace GraphQLModels.Model

/-! ## Types that refer to a contract -/

/-- The shape of a field over the shape at the bottom of its type: every level may be null. -/
def nullableShape (bottom : Shape) : FieldType → Shape
  | .leaf _ _ _ => .optional bottom
  | .level inner _ => .optional (.list (nullableShape bottom inner))

theorem shapeOver_nullableType (bottom : Shape) (name : String) (type : FieldType) :
    shapeOver bottom (Source.nullableType name type) = nullableShape bottom type := by
  induction type with
  | leaf => rfl
  | level inner nullable ih => rw [Source.nullableType, shapeOver, shapeOver, ih, nullableShape]

theorem terminal_nullableType (name : String) (type : FieldType) :
    (Source.nullableType name type).terminal = name := by
  induction type with
  | leaf => rfl
  | level inner nullable ih => exact ih

/-- Whether there is a contract at the bottom of a field type. -/
def RefersTo (type : FieldType) (d : ContractDef) : Prop :=
  (type.terminalKind = .interface ∨ type.terminalKind = .union) ∧ type.terminalName = some d.name

theorem RefersTo.referenceName {type : FieldType} {d : ContractDef} (refers : RefersTo type d)
    (ctx : Source.Context) :
    Source.referenceName ctx type = .ok (d.name ++ Source.aliasSuffix) := by
  obtain ⟨kind, name⟩ := refers
  rcases kind with kind | kind <;>
    simp [Source.referenceName, Source.scalarReference?, kind, name, nameText]

/-! ## What a name means in a class -/

/-- In the body of a class, a name that nothing binds yet means something only if an attribute hides
it, and then no value but null at best. -/
theorem Statement.meaning?_unbound (d : Statement) (s : Loading) (name : String)
    (other : name ≠ d.name) (fresh : name ∉ givenNames) (unbound : findKey? name s.scope = none)
    (unwritten : s.world.isType (.written d.name name) = false) (m : Meaning)
    (means : d.meaning? s name = some m) :
    m = .noType ∨ m = .null ∧ ∃ a ∈ d.attributes, a.name = name := by
  have none : s.binding? name = none := by
    rw [Loading.binding?, unbound]
    cases builtin : builtinBinding? name with
    | none => rfl
    | some binding => exact absurd (builtinBinding?_given name binding builtin) fresh
  unfold meaning? at means
  rw [if_neg (by simpa using other), if_neg] at means
  swap
  · rw [beq_iff_eq]
    rintro rfl
    exact fresh (by decide)
  split at means
  · cases means
    exact .inl rfl
  · split at means
    · rename_i a found
      have isAttribute := List.mem_reverse.mp (List.mem_of_find?_eq_some found)
      have named : a.name = name := by simpa using List.find?_some found
      split at means
      · cases means
        exact .inr ⟨rfl, a, isAttribute, named⟩
      · cases means
        exact .inl rfl
    · rw [none, Option.orElse_none, Loading.written?, unwritten, Bool.and_false] at means
      cases means

/-- A type over a name that nothing binds yet is left for later, unless an attribute hides the
name. -/
theorem Statement.field_unbound (d : Statement) (s : Loading) (a : Source.Attribute)
    (f : FieldOf Draft) (given : d.field s a = .ok f) (name : String) (type : FieldType)
    (typed : a.type = Source.nullableType name type) (other : name ≠ d.name)
    (fresh : name ∉ givenNames) (unbound : findKey? name s.scope = none)
    (unwritten : s.world.isType (.written d.name name) = false) :
    f.shape = .later (Source.nullableType name type) ∨
      f.shape = .known (nullableShape .null type) ∧ ∃ a ∈ d.attributes, a.name = name := by
  obtain ⟨-, -, -, ⟨-, later⟩ | ⟨shape, understood, known⟩⟩ := field_ok d s a f given
  · exact .inl (typed ▸ later)
  rw [typed] at understood
  obtain ⟨m, means, understood⟩ := Option.map_eq_some_iff.mp understood
  obtain ⟨bottom, meant, rfl⟩ := (Outcome.map_ok_iff _ _ _).mp understood
  rw [terminal_nullableType] at means meant
  rcases d.meaning?_unbound s name other fresh unbound unwritten m means with rfl | ⟨rfl, hidden⟩
  · cases meant
  · cases meant
    exact .inr ⟨by rw [known, shapeOver_nullableType], hidden⟩

/-- Once everything is loaded, a name means the same in every class. -/
theorem finalMeaning?_eq (s : Loading) (className name : String) :
    finalMeaning? s className name =
      if name == "None" then some .null else (s.binding? name).map .bound := by
  unfold finalMeaning?
  split
  · rfl
  · by_cases same : name = className
    · subst same
      rw [Loading.binding?]
      cases findKey? name s.scope <;> simp [Option.filter]
    · have different : (name == className) = false := by simpa using same
      cases findKey? className s.scope <;> simp [different]

theorem finishDraft_eq (s : Loading) (one other : String) (draft : Draft) :
    finishDraft s one draft = finishDraft s other draft := by
  cases draft with
  | known => rfl
  | later type =>
    -- What hides a name in the body of a class is forgotten in the end.
    have same : finalMeaning? s one = finalMeaning? s other := funext fun name => by
      rw [finalMeaning?_eq, finalMeaning?_eq]
    rw [finishDraft, finishDraft, same]

/-- A type over the alias of some classes has their shape in the end. -/
theorem finishDraft_places (s : Loading) (className name : String) (type : FieldType)
    (places : List Nat) (fresh : name ∉ givenNames)
    (bound : findKey? name s.scope = some (bindingOfPlaces places))
    (models : ∀ place ∈ places, (s.classes[place]?.map (·.isModel)).getD false = true) :
    finishDraft s className (.later (Source.nullableType name type)) =
      .ok (nullableShape (shapeOfPlaces places) type) := by
  have proper : (name == "None") = false := by
    rw [beq_eq_false_iff_ne]
    rintro rfl
    exact fresh (by decide)
  have means : finalMeaning? s className name = some (.bound (bindingOfPlaces places)) := by
    rw [finalMeaning?_eq, if_neg (by simp [proper]), Loading.binding?, bound]
    rfl
  have meant : shapeOfMeaning s.world s.classes name (.bound (bindingOfPlaces places)) =
      .ok (shapeOfPlaces places) := by
    rcases places with - | ⟨only, - | ⟨second, rest⟩⟩
    · rfl
    · exact if_pos (models only (List.mem_singleton.mpr rfl))
    · rfl
  rw [finishDraft, typeShape?, terminal_nullableType, means, Option.map_some, Option.getD_some,
    meant]
  exact congrArg Except.ok (shapeOver_nullableType _ name type)

/-! ## The fields of a class -/

/-- Every field of a class is one that a class of its order declares, as it is there. -/
theorem Trace.fields_declared {m : Source.Module} {lib : Library} (trace : Trace m lib) (q : Nat)
    (k : ClassOf Draft) (found : trace.withClasses.classes[q]? = some k) :
    q ∈ k.order ∧ ∀ f ∈ k.fields, ∃ p ∈ k.order, ∃ b, trace.withClasses.classes[p]? = some b ∧
      f ∈ b.fields ∧ f.name ∈ b.declared := by
  refine classes_induct trace.classes (fun q k => q ∈ k.order ∧ ∀ f ∈ k.fields, ∃ p ∈ k.order,
    ∃ b, trace.withClasses.classes[p]? = some b ∧ f ∈ b.fields ∧ f.name ∈ b.declared) ?_ ?_ q k
    found
  · intro q k found
    have placed := class_kept trace.classes q k found
    rw [trace.withEnums_classes] at found
    have itself := (foundation_hasNames q k found).itself
    have all : ∀ c ∈ Foundation.classes.map ClassOf.draft, ∀ f ∈ c.fields,
        f.name ∈ c.declared := by
      decide
    refine ⟨itself, fun f member => ⟨q, itself, k, placed, member, ?_⟩⟩
    exact all k (List.mem_of_getElem? found) f member
  · intro step placed earlier
    refine ⟨List.mem_cons_self, fun f member => ?_⟩
    rcases Statement.allFields_from _ _ _ _ f member with
      own | ⟨-, base, isBase, b, isClass, inherited⟩
    · exact ⟨_, List.mem_cons_self, _, placed, member, List.mem_map_of_mem own⟩
    · -- What a base has inherited or declares comes from a class above the base.
      obtain ⟨p, inOrder, source, isSource, declared⟩ := (earlier base b isClass).2 f inherited
      refine ⟨p, List.mem_cons_of_mem _ ?_, source, isSource, declared⟩
      exact (step.makes.mem_above p).mpr ⟨base, isBase, b, isClass, inOrder⟩

/-- Every field of a loaded class is one that a class of its order declares, as it is there. -/
theorem fields_declared {world : World} {m : Source.Module} {lib : Library}
    (loaded : load m world = .ok lib) (place : Nat) (c : Class) (found : lib.class? place = some c) :
    ∀ f ∈ c.fields, ∃ p ∈ c.order, ∃ b,
      lib.class? p = some b ∧ f ∈ b.fields ∧ f.name ∈ b.declared := by
  obtain ⟨trace⟩ := load_trace m lib loaded
  obtain ⟨k, isClass, finishes⟩ := trace.class_finished place c found
  intro g member
  obtain ⟨f, isField, shape, drafted, rfl⟩ := (finishClass_fields _ k c finishes).2 g member
  -- Both classes finish the type of the field alike.
  obtain ⟨p, inOrder, b, isSource, listed, declared⟩ :=
    (trace.fields_declared place k isClass).2 f isField
  obtain ⟨b', found', finishes'⟩ := trace.finished_class p b isSource
  obtain ⟨shape', drafted', listed'⟩ := (finishClass_fields _ b b' finishes').1 f listed
  rw [finishDraft_eq _ b.name k.name, drafted] at drafted'
  cases drafted'
  obtain ⟨fields, rfl, -⟩ := finishClass_ok _ k c finishes
  obtain ⟨fields', rfl, -⟩ := finishClass_ok _ b b' finishes'
  exact ⟨p, inOrder, _, found', listed', declared⟩

/-- A model of a loaded module is one already where the types of its fields are left open. -/
theorem Trace.isModel_draft {m : Source.Module} {lib : Library} (trace : Trace m lib) (place : Nat)
    (model : lib.isModel place = true) :
    (trace.withAliases.classes[place]?.map (·.isModel)).getD false = true := by
  unfold Library.isModel at model
  cases placed : lib.class? place with
  | none =>
    rw [placed] at model
    cases model
  | some b =>
    obtain ⟨k, isDraft, finishes⟩ := trace.class_finished place b placed
    obtain ⟨fields, rfl, -⟩ := finishClass_ok _ k b finishes
    rw [placed] at model
    rw [trace.withAliases_classes, isDraft]
    exact model

/-- A field that a class declares is the mark or comes from an attribute of the class statement. -/
theorem ClassStep.declared_source {sources : List ClassSource} {s : Loading}
    (step : ClassStep sources s) (s' : Loading) (c : Class)
    (finishes : finishClass s' step.made = .ok c) (f : FieldSpec) (member : f ∈ c.fields)
    (declared : f.name ∈ c.declared) :
    (∃ text, f = typenameSpec text) ∨ ∃ a ∈ step.source.attributes, ∃ draft shape,
      (step.source.statement step.places).field step.before a = .ok draft ∧
      finishDraft s' step.made.name draft.shape = .ok shape ∧ f = { draft with shape } := by
  obtain ⟨draft, isDraft, shape, drafted, rfl⟩ := (finishClass_fields _ _ _ finishes).2 f member
  have isDeclared : draft.name ∈ step.made.declared := by
    obtain ⟨fields, rfl, -⟩ := finishClass_ok _ _ _ finishes
    exact declared
  have own : draft ∈ step.declared := by
    rcases Statement.allFields_from _ _ _ _ draft isDraft with own | ⟨other, -⟩
    · exact own
    · exact absurd isDeclared other
  rcases (Statement.declares _ _ _ step.makes.fields).source draft own with
    ⟨text, -, rfl⟩ | ⟨a, isAttribute, gives⟩
  · cases drafted
    exact .inl ⟨text, rfl⟩
  · rw [step.source.statement_attributes] at isAttribute
    exact .inr ⟨a, isAttribute, draft, shape, gives, drafted, rfl⟩

/-- How a field of a class is made of one of the definition: under the escaped name, by an attribute
with its type, which is understood when the class is loaded or in the end. -/
structure ClassStep.MakesField {sources : List ClassSource} {s : Loading}
    (step : ClassStep sources s) (ctx : Source.Context) (s' : Loading) (g : Field)
    (f : FieldSpec) : Prop where
  wire : g.name = some f.wire
  name : f.name = IdentifierUse.field.escape f.wire
  source : ∃ (a : Source.Attribute) (draft : FieldOf Draft) (reference : String),
    Source.referenceName ctx g.type = .ok reference ∧
    a.type = Source.nullableType reference g.type ∧
    (step.source.statement step.places).field step.before a = .ok draft ∧
    finishDraft s' step.made.name draft.shape = .ok f.shape

/-- A field that a class declares is the mark or made of a field of the definition. -/
theorem ClassStep.declared_made {sources : List ClassSource} {s : Loading}
    (step : ClassStep sources s) {ctx : Source.Context} {ancestors : Contract.Ancestors}
    {e : Definition} (isClass : Source.IsClassOf ctx ancestors e step.source) (s' : Loading)
    (c : Class) (finishes : finishClass s' step.made = .ok c) (f : FieldSpec)
    (member : f ∈ c.fields) (declared : f.name ∈ c.declared) :
    (∃ text, f = typenameSpec text) ∨ ∃ g ∈ e.fields, step.MakesField ctx s' g f := by
  rcases step.declared_source s' c finishes f member declared with
    mark | ⟨a, isAttribute, draft, shape, gives, drafted, rfl⟩
  · exact .inl mark
  obtain ⟨g, isField, laidOut⟩ := (Source.attributes_ok _ _ _ isClass.spec.2).2 a isAttribute
  obtain ⟨named, escaped, reference, refers, typed⟩ := Source.attributeOf_ok _ g a laidOut
  obtain ⟨name, wire, -⟩ := Statement.field_ok _ _ a draft gives
  refine .inr ⟨g, isField, ?_, ?_, a, draft, reference, refers, typed, gives, drafted⟩
  · exact named.trans (congrArg some wire.symm)
  · change draft.name = IdentifierUse.field.escape draft.wire
    rw [name, wire]
    exact escaped

/-- A field that a class declares holds one of the fields of its definition. If this refers to a
contract, its shape is over that of the possible types, or over null if an attribute hides the alias
of the contract. -/
theorem declared_field {world : World} {imports : ImportTable} {definitions : List Definition}
    {source : Source.Module} {lib : Library}
    (laysOut : Source.LaysOut imports definitions source) (loaded : load source world = .ok lib)
    (spares : world.Spares source) (apart : NamesApart source) (d : ContractDef)
    (isAlias : Source.contractAlias d ∈ source.aliases) (places : List Nat)
    (models : ∀ place ∈ places, lib.isModel place = true)
    (bound : lib.binding? (d.name ++ Source.aliasSuffix) = some (bindingOfPlaces places)) (i : Nat)
    (e : Definition) (listed : (Source.classDefinitions definitions)[i]? = some e) (c : Class)
    (found : lib.class? (Foundation.classes.length + i) = some c) (f : FieldSpec)
    (member : f ∈ c.fields) (declared : f.name ∈ c.declared) :
    f.IsMark ∨ ∃ g ∈ e.fields, g.name = some f.wire ∧
      (RefersTo g.type d → f.shape = nullableShape (shapeOfPlaces places) g.type ∨
        f.shape = nullableShape .null g.type ∧ ∃ name ∈ e.fieldNames,
          IdentifierUse.field.escape name = d.name ++ Source.aliasSuffix) := by
  obtain ⟨trace⟩ := load_trace source lib loaded
  obtain ⟨step, -, isClass, -, k, found', finishes⟩ :=
    exists_class_of laysOut trace apart i e listed
  cases found'.symm.trans found
  rcases step.declared_made isClass _ c finishes f member declared with
    ⟨text, rfl⟩ | ⟨g, isField, made⟩
  · exact .inl ⟨rfl, rfl⟩
  refine .inr ⟨g, isField, made.wire, fun refers => ?_⟩
  obtain ⟨a, draft, reference, refersTo, typed, gives, drafted⟩ := made.source
  cases (refers.referenceName _).symm.trans refersTo
  have fresh := alias_not_given d.name
  rw [← load_world loaded] at spares
  have isExported : d.name ++ Source.aliasSuffix ∈ source.exported.map nameText :=
    alias_exported isAlias
  -- The alias is bound behind all classes.
  have unbound : findKey? (d.name ++ Source.aliasSuffix) step.before.scope = none :=
    (trace.alias_before apart step _ isAlias).trans
      (Loading.start_unbound _ _ trace.start _ fresh (spares.imports _ isExported))
  have other : d.name ++ Source.aliasSuffix ≠ (step.source.statement step.places).name := by
    rw [step.source.statement_name]
    exact (apart.class_ne_alias _ (List.mem_of_getElem? step.present) _ isAlias).symm
  rcases Statement.field_unbound _ _ a draft gives _ g.type typed other fresh unbound
      ((trace.before_world step).symm ▸ spares.written _ _ isExported) with
    later | ⟨known, b, isAttribute, hides⟩
  · rw [later, finishDraft_places _ _ _ _ places fresh] at drafted
    · exact .inl (Except.ok.inj drafted).symm
    · rw [← bound, Library.binding?, trace.libraryScope]
    · exact fun place isPlace => trace.isModel_draft place (models place isPlace)
  · -- An attribute that hides the alias leaves null as the only value.
    rw [known] at drafted
    rw [step.source.statement_attributes] at isAttribute
    refine .inr ⟨(Except.ok.inj drafted).symm, b.fieldName, ?_, ?_⟩
    · rw [← isClass.fieldNames]
      exact List.mem_map_of_mem isAttribute
    · rw [← isClass.escaped b isAttribute, hides]

end GraphQLModels.Model
