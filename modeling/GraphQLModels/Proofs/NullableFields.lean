import GraphQLModels.Proofs.ContractFields

/-!
# Nullable fields

Each field that a loaded class declares for a field of its definition holds it under the escaped
name, and may be null at every level of the type. What a class inherits is declared so above it.
-/

namespace GraphQLModels.Model

/-! ## Shapes over the types of the schema -/

theorem nullableShape_isNullable (bottom : Shape) (known : bottom.IsBottom) (type : FieldType) :
    (nullableShape bottom type).IsNullable := by
  rw [← shapeOver_nullableType bottom ""]
  exact shapeOver_isNullable bottom known "" type

/-- A nullable type that is understood has the shape of its bottom, nullable at every level. -/
theorem typeShape?_eq {σ : Type} (world : World) (classes : List (ClassOf σ))
    (meaning? : String → Option Meaning) (name : String) (type : FieldType) (shape : Shape)
    (given : typeShape? world classes meaning? (Source.nullableType name type) =
      some (.ok shape)) :
    ∃ bottom : Shape, bottom.IsBottom ∧ shape = nullableShape bottom type := by
  obtain ⟨meaning, -, understood⟩ := Option.map_eq_some_iff.mp given
  obtain ⟨bottom, at_bottom, rfl⟩ := (Outcome.map_ok_iff _ _ _).mp understood
  exact ⟨bottom, shapeOfMeaning_isBottom world classes _ meaning bottom at_bottom,
    shapeOver_nullableType bottom name type⟩

theorem Shape.IsNullable.exists_bottom {shape : Shape} (nullable : shape.IsNullable) :
    ∃ (bottom : Shape) (type : FieldType), bottom.IsBottom ∧ shape = nullableShape bottom type := by
  fun_induction Shape.IsNullable shape with
  | case1 inner ih =>
    obtain ⟨bottom, type, known, rfl⟩ := ih nullable
    exact ⟨bottom, .list type, known, rfl⟩
  | case2 inner => exact ⟨inner, .named none .scalar, nullable, rfl⟩
  | case3 => exact nullable.elim

/-- Whether a field holds a field of the schema: under its escaped name, and nullable at every level
of its type. -/
structure FieldOf.Holds (f : FieldSpec) (g : Field) : Prop where
  wire : g.name = some f.wire
  name : f.name = IdentifierUse.field.escape f.wire
  shape : ∃ bottom : Shape, bottom.IsBottom ∧ f.shape = nullableShape bottom g.type

theorem FieldOf.Holds.isNullable {f : FieldSpec} {g : Field} (holds : f.Holds g) :
    f.shape.IsNullable := by
  obtain ⟨bottom, known, shape⟩ := holds.shape
  rw [shape]
  exact nullableShape_isNullable bottom known g.type

/-! ## Declared fields -/

/-- The shape of a field does not depend on when its type is understood. -/
theorem finished_shape (d : Statement) (s s' : Loading) (className : String) (a : Source.Attribute)
    (f : FieldOf Draft) (given : d.field s a = .ok f) (name : String) (type : FieldType)
    (typed : a.type = Source.nullableType name type) (shape : Shape)
    (finished : finishDraft s' className f.shape = .ok shape) :
    ∃ bottom : Shape, bottom.IsBottom ∧ shape = nullableShape bottom type := by
  obtain ⟨-, -, -, ⟨-, later⟩ | ⟨known, understood, here⟩⟩ := d.field_ok s a f given
  · rw [later, typed, finishDraft] at finished
    cases understood : typeShape? s'.world s'.classes (finalMeaning? s' className)
        (Source.nullableType name type) with
    | none =>
      rw [understood] at finished
      cases finished
    | some outcome =>
      rw [understood, Option.getD_some] at finished
      exact typeShape?_eq _ _ _ name type shape (finished ▸ understood)
  · rw [here] at finished
    cases finished
    exact typeShape?_eq _ _ _ name type shape (typed ▸ understood)

/-- The classes of the foundation keep their places. -/
theorem Trace.foundation_class {m : Source.Module} {lib : Library} (trace : Trace m lib)
    (place : Nat) (c : Class) (placed : Foundation.classes[place]? = some c) :
    trace.withClasses.classes[place]? = some c.draft := by
  refine class_kept trace.classes place _ ?_
  rw [trace.withEnums_classes, List.getElem?_map, placed]
  rfl

/-- The fields of the foundation are nullable as well. -/
theorem foundation_holds {world : World} {source : Source.Module} {lib : Library}
    (loaded : load source world = .ok lib) (place : Nat) (within : place < Foundation.classes.length)
    (c : Class) (found : lib.class? place = some c) :
    ∀ f ∈ c.fields, (∃ text, f = typenameSpec text) ∨
      f.wire ∈ foundationNames place ∧ ∃ g, f.Holds g := by
  obtain ⟨trace⟩ := load_trace source lib loaded
  obtain ⟨k, isClass, finishes⟩ := trace.class_finished place c found
  have placed := List.getElem?_eq_getElem within
  cases isClass.symm.trans (trace.foundation_class place _ placed)
  have isGenerated := foundation_isGenerated _ (List.mem_map_of_mem (List.getElem_mem within))
  intro f member
  obtain ⟨draft, isDraft, shape, drafted, rfl⟩ := (finishClass_fields _ _ c finishes).2 f member
  rcases isGenerated.fields draft isDraft with ⟨text, rfl⟩ | ⟨escaped, unmarked, -, nullable⟩
  · cases drafted
    exact .inl ⟨text, rfl⟩
  · obtain ⟨bottom, type, known, rfl⟩ :=
      (finishDraft_isNullable _ _ _ shape nullable drafted).exists_bottom
    refine .inr ⟨?_, { name := some draft.wire, type }, rfl, escaped, bottom, known, rfl⟩
    obtain ⟨f, isField, rfl⟩ := List.mem_map.mp isDraft
    rw [foundationNames, placed]
    apply List.mem_filter.mpr
    exact ⟨List.mem_map.mpr ⟨f, isField, rfl⟩, by simpa using unmarked⟩

section

variable {world : World} {imports : ImportTable} {definitions : List Definition}
  {source : Source.Module} {lib : Library} (laysOut : Source.LaysOut imports definitions source)
  (loaded : load source world = .ok lib)

include laysOut loaded

/-- A place belongs to the foundation or to a definition. -/
theorem place_cases (place : Nat) (c : Class) (found : lib.class? place = some c) :
    place < Foundation.classes.length ∨ ∃ i e, place = Foundation.classes.length + i ∧
      (Source.classDefinitions definitions)[i]? = some e := by
  obtain ⟨trace⟩ := load_trace source lib loaded
  obtain ⟨k, isClass, -⟩ := trace.class_finished place c found
  refine classes_induct trace.classes (fun q _ => q < Foundation.classes.length ∨ ∃ i e,
    q = Foundation.classes.length + i ∧ (Source.classDefinitions definitions)[i]? = some e) ?_ ?_
    place k isClass
  · intro q k initial
    rw [← trace.length_withEnums]
    exact .inl (List.getElem?_eq_some_iff.mp initial).choose
  · intro step _ _
    obtain ⟨e, listed, -⟩ := laysOut.definition_of step.index step.source step.present
    rw [step.length, trace.length_withEnums]
    exact .inr ⟨step.index, e, rfl, listed⟩

/-- A field that a class declares is the mark or holds a field of the definition. -/
theorem declared_holds (i : Nat) (e : Definition)
    (listed : (Source.classDefinitions definitions)[i]? = some e) (c : Class)
    (found : lib.class? (Foundation.classes.length + i) = some c) (f : FieldSpec)
    (member : f ∈ c.fields) (declared : f.name ∈ c.declared) :
    (∃ text, f = typenameSpec text) ∨ ∃ g ∈ e.fields, f.Holds g := by
  obtain ⟨trace⟩ := load_trace source lib loaded
  obtain ⟨step, -, isClass, k, found', finishes⟩ := laysOut.exists_step trace i e listed
  cases found'.symm.trans found
  rcases step.declared_made isClass _ c finishes f member declared with mark | ⟨g, isField, made⟩
  · exact .inl mark
  obtain ⟨a, draft, reference, -, typed, gives, drafted⟩ := made.source
  exact .inr ⟨g, isField, made.wire, made.name,
    finished_shape _ _ _ _ a draft gives _ _ typed f.shape drafted⟩

/-! ## All fields -/

/-- Whether a field of the schema belongs to the class at a place. -/
inductive IsFieldAt (definitions : List Definition) : Nat → Field → Prop where
  | foundation {place : Nat} {g : Field} {name : String} (isName : name ∈ foundationNames place)
      (named : g.name = some name) : IsFieldAt definitions place g
  | definition {i : Nat} {e : Definition} {g : Field}
      (listed : (Source.classDefinitions definitions)[i]? = some e) (isField : g ∈ e.fields) :
    IsFieldAt definitions (Foundation.classes.length + i) g

/-- **Every field of a loaded class** but the mark holds a field of the schema that belongs to the
class or to one above it. -/
theorem class_field_holds (place : Nat) (c : Class) (found : lib.class? place = some c) :
    ∀ f ∈ c.fields, (∃ text, f = typenameSpec text) ∨
      ∃ p ∈ c.order, ∃ g, IsFieldAt definitions p g ∧ f.Holds g := by
  intro f member
  obtain ⟨p, inOrder, b, isAbove, listed, declared⟩ := fields_declared loaded place c found f member
  rcases place_cases laysOut loaded p b isAbove with within | ⟨i, e, rfl, isDefinition⟩
  · refine (foundation_holds loaded p within b isAbove f listed).imp_right ?_
    rintro ⟨isName, g, holds⟩
    exact ⟨p, inOrder, g, .foundation isName holds.wire, holds⟩
  · refine (declared_holds laysOut loaded i e isDefinition b isAbove f listed declared).imp_right ?_
    rintro ⟨g, isField, holds⟩
    exact ⟨_, inOrder, g, .definition isDefinition isField, holds⟩

end

end GraphQLModels.Model
