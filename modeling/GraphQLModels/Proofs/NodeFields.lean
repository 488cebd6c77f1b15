import GraphQLModels.Proofs.FoundMethods

/-!
# Fields that lead to nodes

A field whose type is an object has the class of the object at its bottom, whether the class stands
before the field, behind it or around it, unless something else has the name of the class first. What
is decoded under the class has an attribute for each of its fields.
-/

namespace GraphQLModels.Model

/-! ## Types that refer to a class -/

/-- In the body of a class, a name that is bound to nothing but a class means this class, null or no
value at all. -/
theorem Statement.meaning?_class (d : Statement) (s : Loading) (name : String) (place : Nat)
    (unwritten : s.world.isType (.written d.name name) = false)
    (itself : name = d.name → s.classes.length = place)
    (bound : name ≠ d.name → ∀ b, s.binding? name = some b → b = .cls place) (m : Meaning)
    (means : d.meaning? s name = some m) :
    m = .noType ∨ m = .null ∨ m = .itself place ∨ m = .bound (.cls place) := by
  unfold meaning? at means
  split at means
  · rename_i same
    cases means
    rw [itself (eq_of_beq same)]
    exact .inr (.inr (.inl rfl))
  rename_i other
  rw [beq_iff_eq] at other
  split at means
  · cases means
    exact .inr (.inl rfl)
  split at means
  · cases means
    exact .inl rfl
  split at means
  · split at means <;> cases means
    · exact .inr (.inl rfl)
    · exact .inl rfl
  · rw [Loading.written?, unwritten, Bool.and_false] at means
    cases isBound : s.binding? name with
    | none =>
      rw [isBound] at means
      cases means
    | some b =>
      rw [isBound] at means
      cases means
      rw [bound other b isBound]
      exact .inr (.inr (.inr rfl))

/-- A type over such a name has the class or null at its bottom. -/
theorem typeShape?_class {σ : Type} (world : World) (classes : List (ClassOf σ))
    (meaning? : String → Option Meaning) (name : String) (place : Nat)
    (each : ∀ m, meaning? name = some m →
      m = .noType ∨ m = .null ∨ m = .itself place ∨ m = .bound (.cls place))
    (type : FieldType) (shape : Shape)
    (given : typeShape? world classes meaning? (Source.nullableType name type) =
      some (.ok shape)) :
    shape = nullableShape (.model place) type ∨ shape = nullableShape .null type := by
  obtain ⟨m, means, understood⟩ := Option.map_eq_some_iff.mp given
  obtain ⟨bottom, meant, rfl⟩ := (Outcome.map_ok_iff _ _ _).mp understood
  rw [terminal_nullableType] at means meant
  rw [shapeOver_nullableType]
  rcases each m means with rfl | rfl | rfl | rfl
  · cases meant
  · cases meant
    exact .inr rfl
  · cases meant
    exact .inl rfl
  · rw [shapeOfMeaning] at meant
    split at meant <;> cases meant
    exact .inl rfl

theorem finishDraft_class (s : Loading) (className name : String) (place : Nat)
    (bound : s.binding? name = some (.cls place)) (type : FieldType) (shape : Shape)
    (given : finishDraft s className (.later (Source.nullableType name type)) = .ok shape) :
    shape = nullableShape (.model place) type ∨ shape = nullableShape .null type := by
  rw [finishDraft] at given
  cases understood : typeShape? s.world s.classes (finalMeaning? s className)
      (Source.nullableType name type) with
  | none =>
    rw [understood] at given
    cases given
  | some outcome =>
    rw [understood, Option.getD_some] at given
    refine typeShape?_class _ _ _ name place (fun m means => ?_) type shape (given ▸ understood)
    rw [finalMeaning?_eq, bound] at means
    split at means <;> cases means
    · exact .inr (.inl rfl)
    · exact .inr (.inr (.inr rfl))

/-- Whether a name means nothing before the first statement of a module: no import and no built-in
name is the same. -/
def IsFree (m : Source.Module) (name : String) (world : World := .closed) : Prop :=
  ∀ s, Loading.start m.imports world = .ok s → s.binding? name = none

section

variable {world : World} {imports : ImportTable} {definitions : List Definition}
  {source : Source.Module} {lib : Library} (laysOut : Source.LaysOut imports definitions source)
  (loaded : load source world = .ok lib) (spares : world.Spares source)
  (distinct : (source.exported.map nameText).Nodup)

include laysOut loaded spares distinct

/-- A field that refers to an object has the class of the object at its bottom, or null if an
attribute hides the class. A class that stands behind the field must have a name of its own. -/
theorem declared_object_field (j : Nat) (o : ObjectDef)
    (target : (Source.classDefinitions definitions)[j]? = some (.object o))
    (i : Nat) (e : Definition) (listed : (Source.classDefinitions definitions)[i]? = some e)
    (free : j ≤ i ∨ IsFree source (nameText o.name) world) (c : Class)
    (found : lib.class? (Foundation.classes.length + i) = some c) (f : FieldSpec)
    (member : f ∈ c.fields) (declared : f.name ∈ c.declared) :
    f.IsMark ∨ ∃ g ∈ e.fields, g.name = some f.wire ∧
      (g.type.terminalKind = .object → g.type.terminalName = o.name →
        f.shape = nullableShape (.model (Foundation.classes.length + j)) g.type ∨
          f.shape = nullableShape .null g.type) := by
  obtain ⟨trace⟩ := load_trace source lib loaded
  obtain rfl := load_world loaded
  have apart := namesApart source distinct
  obtain ⟨step, rfl, isClass, k, found', finishes⟩ := laysOut.exists_step trace i e listed
  cases found'.symm.trans found
  rcases step.declared_made isClass _ c finishes f member declared with
    ⟨text, rfl⟩ | ⟨g, isField, made⟩
  · exact .inl ⟨rfl, rfl⟩
  refine .inr ⟨g, isField, made.wire, fun ofKind ofName => ?_⟩
  obtain ⟨a, draft, reference, refersTo, typed, gives, drafted⟩ := made.source
  have isReference : reference = nameText o.name := by
    simp only [Source.referenceName, Source.scalarReference?, ofKind, ofName] at refersTo
    exact (Except.ok.inj refersTo).symm
  subst isReference
  obtain ⟨other, present, isOther⟩ := laysOut.class_of j _ target
  have named : other.name = nameText o.name := isOther.spec.1
  have bound := trace.binding?_class apart j other present
  rw [named] at bound
  obtain ⟨-, -, -, ⟨-, later⟩ | ⟨shape', understood, known⟩⟩ := Statement.field_ok _ _ a draft gives
  · rw [later, typed] at drafted
    refine finishDraft_class _ _ _ _ ?_ g.type f.shape drafted
    rw [Loading.binding?, ← trace.libraryScope]
    change (lib.binding? (nameText o.name)).orElse _ = _
    rw [bound]
    rfl
  · rw [known] at drafted
    obtain rfl : shape' = f.shape := Except.ok.inj drafted
    rw [typed] at understood
    have unwritten : step.before.world.isType
        (.written (step.source.statement step.places).name (nameText o.name)) = false := by
      rw [trace.before_world step]
      exact spares.written _ _ (named ▸ class_exported (List.mem_of_getElem? present))
    refine typeShape?_class _ _ _ _ _ (Statement.meaning?_class _ _ _ _ unwritten (fun same => ?_)
      fun different b isBound => ?_) g.type _ understood
    · -- The class itself is about to take the place that its name leads to.
      rw [step.source.statement_name] at same
      have itself := trace.binding?_class apart step.index step.source step.present
      rw [← same, bound] at itself
      rw [step.length, trace.length_withEnums]
      exact (Binding.cls.inj (Option.some.inj itself)).symm
    · rcases trace.class_before distinct step j other present with ⟨-, here⟩ | ⟨late, still⟩
      · rw [named] at here
        rw [Loading.binding?, here] at isBound
        exact (Option.some.inj isBound).symm
      · rw [named] at still
        rw [Loading.binding?, still] at isBound
        rcases free with early | free
        · -- The class would have to be the one that the field is in.
          obtain rfl : j = step.index := by omega
          cases present.symm.trans step.present
          exact absurd (named.symm.trans (step.source.statement_name _).symm) different
        · cases (free trace.started trace.start).symm.trans isBound

end

/-! ## Attributes of what is decoded -/

namespace Library

variable (lib : Library)

/-- What is decoded under a class has an attribute for each of its fields, and no others. -/
theorem own?_of_decode (form : Form) (j : Json) (place : Nat) (v : Value)
    (apart : ((lib.fieldsOf place).map (·.name)).Nodup)
    (read : lib.decode form j (.model place) = .ok v) :
    ∃ attributes, v = .object none place attributes ∧
      attributes.map (·.1) = (lib.fieldsOf place).map (·.name) ∧
      ∀ f ∈ lib.fieldsOf place, ∃ value, v.own? f.name = some value ∧
        (value = f.initial ∨ ∃ j, lib.decode form j f.shape = .ok value) := by
  obtain ⟨members, attributes, -, all, rfl⟩ := (decode_model_ok_iff lib form place j v).mp read
  obtain ⟨names, each⟩ := decodeFields_ok lib form members _ attributes all
  refine ⟨attributes, rfl, names, fun f isField => ?_⟩
  obtain ⟨value, own, holds⟩ := each f isField
  refine ⟨value, (findKey?_eq_some_iff _ _ _ (names ▸ apart)).mpr own, ?_⟩
  cases given : held? members f with
  | none => exact .inl (by rwa [given] at holds)
  | some entry => exact .inr ⟨entry.2, by rwa [given] at holds⟩

/-- Whether what is decoded under a shape is null or has a node. -/
def LeadsToNode (shape : Shape) : Prop :=
  ∀ form j v, lib.decode form j shape = .ok v → v = .null ∨ ∃ node, v.own? "node" = some node

theorem leadsToNode_null : lib.LeadsToNode .null :=
  fun form j v read => .inl ((decode_null_ok_iff lib form j v).mp read).2

variable {lib}

theorem leadsToNode_model (place : Nat) (apart : ((lib.fieldsOf place).map (·.name)).Nodup)
    (f : FieldSpec) (isField : f ∈ lib.fieldsOf place) (named : f.name = "node") :
    lib.LeadsToNode (.model place) := by
  intro form j v read
  obtain ⟨_, -, -, each⟩ := lib.own?_of_decode form j place v apart read
  obtain ⟨node, own, -⟩ := each f isField
  exact .inr ⟨node, named ▸ own⟩

theorem leadsToNode_shapeOfPlaces (places : List Nat)
    (each : ∀ place ∈ places, lib.LeadsToNode (.model place)) :
    lib.LeadsToNode (shapeOfPlaces places) := by
  intro form j v read
  obtain ⟨place, isPlace, read⟩ := lib.decode_shapeOfPlaces form places j v read
  exact each place isPlace form j v read

end Library

/-! ## Fields of a connection and of its edges -/

/-- A name is escaped to one that is neither set off nor marked only if it is the same. -/
theorem eq_of_escape (one name : String) (unmarked : name.toList.getLast? ≠ some '_')
    (front : name.toList.take 5 ≠ ['f', 'i', 'e', 'l', 'd'])
    (same : IdentifierUse.field.escape one = name) : one = name := by
  rw [IdentifierUse.escape_field] at same
  split at same
  · rw [← same] at front
    exact absurd (by simp) front
  split at same
  · rw [← same] at unmarked
    exact absurd (by simp) unmarked
  · exact same

section

variable {world : World} {imports : ImportTable} {definitions : List Definition}
  {source : Source.Module} {lib : Library} (laysOut : Source.LaysOut imports definitions source)
  (loaded : load source world = .ok lib)

include laysOut loaded

/-- An object of a class is null or has a node, if a field of this name belongs to the class or to
one above it. -/
theorem leadsToNode_of_names (place : Nat) (c : Class) (found : lib.class? place = some c) (q : Nat)
    (inOrder : q ∈ c.order) (isName : "node" ∈ namesAt definitions q) :
    lib.LeadsToNode (.model place) := by
  have has := library_hasNames laysOut loaded place c found
  have fields := lib.fieldsOf_eq place c found
  obtain ⟨f, isField, named⟩ := has.present q inOrder "node" isName
  exact Library.leadsToNode_model place (fields ▸ has.apart) f (fields ▸ isField)
    (named.trans (by decide))

/-- The field of a class for a name that needs no escape is that of the object. -/
theorem object_field (i : Nat) (o : ObjectDef)
    (listed : (Source.classDefinitions definitions)[i]? = some (.object o)) (c : Class)
    (found : lib.class? (Foundation.classes.length + i) = some c) (name : String)
    (unmarked : name.toList.getLast? ≠ some '_')
    (front : name.toList.take 5 ≠ ['f', 'i', 'e', 'l', 'd'])
    (same : IdentifierUse.field.escape name = name) (g : Field) (isField : g ∈ o.fields)
    (named : g.name = some name) :
    ∃ f ∈ c.fields, f.name = name ∧ f.wire = name ∧ f.name ∈ c.declared ∧ ¬f.IsMark ∧
      f.initial = .null := by
  have has := library_hasNames laysOut loaded _ c found
  have own := namesAt_class definitions i _ listed
  have isName : name ∈ namesAt definitions (Foundation.classes.length + i) := by
    rw [own]
    exact List.mem_filterMap.mpr ⟨g, isField, named⟩
  obtain ⟨f, member, isAttribute⟩ := has.present _ has.itself name isName
  have declared := has.declared name isName
  rw [← isAttribute] at declared
  have unlike := not_isMark f name isAttribute
  rw [same] at isAttribute
  have wire : f.wire = name := by
    rcases has.own f member declared with mark | ⟨escaped, -⟩
    · exact absurd mark unlike
    · exact eq_of_escape f.wire name unmarked front (escaped.symm.trans isAttribute)
  refine ⟨f, member, isAttribute, wire, declared, unlike, ?_⟩
  obtain ⟨trace⟩ := load_trace source lib loaded
  obtain ⟨step, -, -, c', found', finishes⟩ := laysOut.exists_step trace i _ listed
  cases found'.symm.trans found
  rcases step.declared_source _ c finishes f member declared with
    ⟨text, rfl⟩ | ⟨a, -, draft, shape, gives, -, rfl⟩
  · exact absurd ⟨rfl, rfl⟩ unlike
  · exact (Statement.field_ok _ _ a draft gives).2.2.1

end

end GraphQLModels.Model
