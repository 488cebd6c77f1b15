import GraphQLModels.Proofs.ClassHeaders
import GraphQLModels.Proofs.EscapedNames
import GraphQLModels.Proofs.Hierarchy
import GraphQLModels.Proofs.LaidOut

/-!
# Fields of loaded classes

Every class of a loaded module has its fields under different attributes: the mark with the name of
its schema type, and fields of the schema under escaped names, each nullable at every level. Loading
keeps this with every class statement, since a class only inherits fields and adds such fields.
-/

namespace GraphQLModels

namespace Model

/-! ## The own fields of a statement -/

namespace Statement

/-- The field of an attribute has its names, and a shape if its type is understood already. -/
theorem field_ok (d : Statement) (s : Loading) (a : Source.Attribute) (f : FieldOf Draft)
    (given : d.field s a = .ok f) :
    f.name = a.name ∧ f.wire = a.fieldName ∧ f.initial = .null ∧
      (typeShape? s.world s.classes (d.meaning? s) a.type = none ∧ f.shape = .later a.type ∨
        ∃ shape, typeShape? s.world s.classes (d.meaning? s) a.type = some (.ok shape) ∧
          f.shape = .known shape) := by
  unfold field at given
  split at given
  · rename_i outcome understood
    obtain ⟨draft, drafted, made⟩ := (Outcome.bind_ok_iff _ _ _).mp given
    obtain ⟨shape, rfl, rfl⟩ := (Outcome.map_ok_iff _ _ _).mp drafted
    cases made
    exact ⟨rfl, rfl, rfl, .inr ⟨shape, understood, rfl⟩⟩
  · rename_i unknown
    cases given
    exact ⟨rfl, rfl, rfl, .inl ⟨unknown, rfl⟩⟩

/-- What the own fields of a statement are: the mark, and one field for each attribute. -/
structure Declares (d : Statement) (s : Loading) (declared : List (FieldOf Draft)) : Prop where
  apart : (declared.map (·.name)).Nodup
  source : ∀ f ∈ declared, (∃ text, d.tag = some text ∧ f = (typenameSpec text).draft) ∨
    ∃ a ∈ d.attributes, d.field s a = .ok f
  attributes : ∀ a ∈ d.attributes, a.name ∈ declared.map (·.name)
  tag : d.tag.isSome → typenameField ∈ declared.map (·.name)

theorem declares (d : Statement) (s : Loading) (declared : List (FieldOf Draft))
    (given : d.declaredFields s = .ok declared) : d.Declares s declared := by
  obtain ⟨fields, made, given⟩ := (Outcome.bind_ok_iff _ _ _).mp given
  have listed := ((Outcome.pure_ok_iff _ _).mp given).symm
  generalize given : (d.tag.map fun name => (typenameSpec name).draft).toList ++ fields = all
    at listed
  -- Each field stands under its own name.
  have named : ∀ entry ∈ setKeys [] (all.map fun f => (f.name, f)), entry.1 = entry.2.name := by
    intro entry member
    rcases mem_setKeys _ _ _ member with none | later
    · cases none
    · obtain ⟨f, -, rfl⟩ := List.mem_map.mp later
      rfl
  have names : declared.map (·.name) =
      (setKeys [] (all.map fun f => (f.name, f))).map (·.1) := by
    rw [listed, List.map_map]
    exact List.map_congr_left fun entry member => (named entry member).symm
  have present : ∀ f ∈ all, f.name ∈ declared.map (·.name) := by
    intro f member
    rw [names, mem_keys_setKeys, List.map_map]
    exact .inr (List.mem_map.mpr ⟨f, member, rfl⟩)
  refine ⟨?_, ?_, ?_, ?_⟩
  · rw [names]
    exact setKeys_nodup [] _ List.nodup_nil
  · intro f member
    rw [listed] at member
    obtain ⟨entry, isEntry, rfl⟩ := List.mem_map.mp member
    rcases mem_setKeys _ _ _ isEntry with none | later
    · cases none
    obtain ⟨f, isField, rfl⟩ := List.mem_map.mp later
    rw [← given, List.mem_append, Option.mem_toList, Option.map_eq_some_iff] at isField
    rcases isField with ⟨text, tagged, rfl⟩ | own
    · exact .inl ⟨text, tagged, rfl⟩
    · exact .inr (Outcome.mapM_from _ _ _ made f own)
  · intro a member
    obtain ⟨f, isField, gives⟩ := Outcome.mapM_mem _ _ _ made a member
    rw [← (field_ok d s a f gives).1]
    exact present f (given ▸ List.mem_append_right _ isField)
  · intro tagged
    obtain ⟨text, tag⟩ := Option.isSome_iff_exists.mp tagged
    refine present (typenameSpec text).draft (given ▸ List.mem_append_left _ ?_)
    rw [tag]
    exact List.mem_singleton.mpr rfl

end Statement

/-! ## All fields of a class -/

/-- Whatever is chosen for different names has these names, and different ones so. -/
theorem chosen_apart {σ : Type} (choose : String → Option (FieldOf σ)) (names : List String)
    (distinct : names.Nodup) (named : ∀ name f, choose name = some f → f.name = name) :
    ((names.filterMap choose).map (·.name)).Nodup := by
  have kept : ((names.filterMap choose).map (·.name)).Sublist names := by
    clear distinct
    induction names with
    | nil => exact List.Sublist.refl _
    | cons name rest ih =>
      rw [List.filterMap_cons]
      cases found : choose name with
      | none => exact ih.cons _
      | some f =>
        rw [List.map_cons, named name f found]
        exact ih.cons_cons _
  exact distinct.sublist kept

/-- A field of a class has the name under which it is looked up, and comes from the class or from a
base. -/
theorem chosen_from (declared : List (FieldOf Draft)) (bases : List (ClassOf Draft)) (name : String)
    (f : FieldOf Draft)
    (chosen : ((declared.find? fun f => f.name == name).orElse fun _ =>
      bases.findSome? fun c => c.field? name) = some f) :
    f.name = name ∧ (f ∈ declared ∨ ∃ c ∈ bases, f ∈ c.fields) := by
  rcases Option.or_eq_some_iff.mp ((Option.or_eq_orElse ..).trans chosen) with own | ⟨-, inherited⟩
  · exact ⟨by simpa using List.find?_some own, .inl (List.mem_of_find?_eq_some own)⟩
  · obtain ⟨c, isBase, found⟩ := List.exists_of_findSome?_eq_some inherited
    exact ⟨by simpa using List.find?_some found,
      .inr ⟨c, isBase, List.mem_of_find?_eq_some found⟩⟩

namespace Statement

section

variable (d : Statement) (s : Loading) (above : List Nat) (declared : List (FieldOf Draft))

theorem allFields_apart : ((d.allFields s above declared).map (·.name)).Nodup :=
  chosen_apart _ _ (eraseDups_nodup _) fun name f chosen =>
    (chosen_from declared _ name f chosen).1

/-- A class has its own fields as they are. -/
theorem mem_allFields_own (apart : (declared.map (·.name)).Nodup) (f : FieldOf Draft)
    (member : f ∈ declared) : f ∈ d.allFields s above declared := by
  have found := find?_of_distinct (·.name) apart member
  refine List.mem_filterMap.mpr ⟨f.name, ?_, by rw [found]; rfl⟩
  exact List.mem_eraseDups.mpr (List.mem_append_right _ (List.mem_map_of_mem member))

/-- Every other field is one of a base, under an attribute that the class does not have itself. -/
theorem allFields_from (f : FieldOf Draft) (member : f ∈ d.allFields s above declared) :
    f ∈ declared ∨ f.name ∉ declared.map (·.name) ∧
      ∃ base ∈ d.bases, ∃ k, s.classes[base]? = some k ∧ f ∈ k.fields := by
  obtain ⟨name, -, chosen⟩ := List.mem_filterMap.mp member
  rcases Option.or_eq_some_iff.mp ((Option.or_eq_orElse ..).trans chosen) with own | ⟨none, found⟩
  · exact .inl (List.mem_of_find?_eq_some own)
  · obtain ⟨k, isBase, inherited⟩ := List.exists_of_findSome?_eq_some found
    obtain ⟨base, listed, isClass⟩ := List.mem_filterMap.mp isBase
    have same : f.name = name := by simpa using List.find?_some inherited
    refine .inr ⟨?_, base, listed, k, isClass, List.mem_of_find?_eq_some inherited⟩
    rw [same]
    intro isOwn
    obtain ⟨g, isField, named⟩ := List.mem_map.mp isOwn
    simpa [named] using List.find?_eq_none.mp none g isField

/-- A class has a field under every attribute of the classes above it. -/
theorem allFields_inherits (q : Nat) (k : ClassOf Draft) (isAbove : q ∈ above)
    (isClass : s.classes[q]? = some k) (name : String) (isDeclared : name ∈ k.declared)
    (base : Nat) (b : ClassOf Draft) (isBase : base ∈ d.bases)
    (found : s.classes[base]? = some b) (f : FieldOf Draft) (inherited : f ∈ b.fields)
    (named : f.name = name) : ∃ g ∈ d.allFields s above declared, g.name = name := by
  have listed : name ∈ ((above.reverse.filterMap fun place => s.classes[place]?).flatMap
      (·.declared) ++ declared.map (·.name)).eraseDups := by
    refine List.mem_eraseDups.mpr (List.mem_append_left _ ?_)
    refine List.mem_flatMap.mpr ⟨k, ?_, isDeclared⟩
    exact List.mem_filterMap.mpr ⟨q, List.mem_reverse.mpr isAbove, isClass⟩
  have ofBase : ((d.bases.filterMap fun place => s.classes[place]?).findSome? fun c =>
      c.field? name).isSome := by
    refine List.findSome?_isSome_iff.mpr ⟨b, List.mem_filterMap.mpr ⟨base, isBase, found⟩, ?_⟩
    exact List.find?_isSome.mpr ⟨f, inherited, by simp [named]⟩
  have chosen : ((declared.find? fun g => g.name == name).orElse fun _ =>
      (d.bases.filterMap fun place => s.classes[place]?).findSome? fun c =>
        c.field? name).isSome := by
    cases declared.find? fun g => g.name == name with
    | some g => rfl
    | none => exact ofBase
  obtain ⟨g, isChosen⟩ := Option.isSome_iff_exists.mp chosen
  exact ⟨g, List.mem_filterMap.mpr ⟨name, listed, isChosen⟩,
    (chosen_from declared _ name g isChosen).1⟩

end

end Statement

/-! ## Nullable shapes -/

/-- Whether a shape stands at the bottom of a type. -/
def Shape.IsBottom : Shape → Prop
  | .literal _ | .optional _ | .list _ => False
  | _ => True

/-- Whether a shape may be null, and so may the items of its lists at every level. -/
def Shape.IsNullable : Shape → Prop
  | .optional (.list inner) => inner.IsNullable
  | .optional inner => inner.IsBottom
  | _ => False

/-- Whether every level of a draft may be null. -/
def Draft.IsNullable : Draft → Prop
  | .known shape => shape.IsNullable
  | .later type => ∃ name written, type = Source.nullableType name written

theorem shapeOfMeaning_isBottom {σ : Type} (world : World) (classes : List (ClassOf σ))
    (name : String) (meaning : Meaning) (bottom : Shape)
    (given : shapeOfMeaning world classes name meaning = .ok bottom) : bottom.IsBottom := by
  unfold shapeOfMeaning at given
  split at given
  case h_7 | h_8 | h_11 =>
    split at given
    · cases given
      trivial
    · cases given
  all_goals
    cases given
    try trivial

theorem shapeOver_isNullable (bottom : Shape) (known : bottom.IsBottom) (name : String)
    (type : FieldType) : (shapeOver bottom (Source.nullableType name type)).IsNullable := by
  induction type with
  | leaf target kind nullable =>
    cases bottom with
    | literal _ | optional _ | list _ => exact known.elim
    | null | scalar _ | enum _ | model _ | choice _ | foreign _ => trivial
  | level inner nullable ih => exact ih

/-- A nullable type that is understood has a nullable shape. -/
theorem typeShape?_isNullable {σ : Type} (world : World) (classes : List (ClassOf σ))
    (meaning? : String → Option Meaning) (name : String) (type : FieldType) (shape : Shape)
    (given : typeShape? world classes meaning? (Source.nullableType name type) =
      some (.ok shape)) : shape.IsNullable := by
  obtain ⟨meaning, -, understood⟩ := Option.map_eq_some_iff.mp given
  obtain ⟨bottom, at_bottom, rfl⟩ := (Outcome.map_ok_iff _ _ _).mp understood
  exact shapeOver_isNullable bottom
    (shapeOfMeaning_isBottom world classes _ meaning bottom at_bottom) name type

/-! ## Fields and classes -/

section

variable {σ : Type} (known : Shape → σ) (nullable : σ → Prop)

/-- Whether a field is one that a generated class has: the mark with the name of the schema type, or
a field of the schema under its escaped name. -/
def FieldOf.IsGenerated (f : FieldOf σ) : Prop :=
  (∃ text, f = { typenameSpec text with shape := known (.literal text) }) ∨
    (f.name = IdentifierUse.field.escape f.wire ∧ f.wire ≠ typenameAlias ∧ f.initial = .null ∧
      nullable f.shape)

/-- Whether a class has generated fields, under different attributes, and no method in place of the
one that writes its objects. -/
structure ClassOf.IsGenerated (c : ClassOf σ) : Prop where
  apart : (c.fields.map (·.name)).Nodup
  fields : ∀ f ∈ c.fields, f.IsGenerated known nullable
  methods : ∀ m, findKey? "to_json" c.methods = some m → m = .json

end

/-- Whether an attribute holds a field of the schema that is not named as the mark is. -/
def IsLaidOut (a : Source.Attribute) : Prop :=
  a.name = IdentifierUse.field.escape (a.rename.getD a.name) ∧
    a.rename.getD a.name ≠ typenameAlias ∧ ∃ name type, a.type = Source.nullableType name type

/-- Whether everything that a class statement adds to its bases is generated. -/
structure Statement.IsGenerated (d : Statement) : Prop where
  attributes : ∀ a ∈ d.attributes, IsLaidOut a
  methods : ∀ m, findKey? "to_json" d.methods = some m → m = .json

/-- Whether all classes that are loaded are generated. -/
def Loading.IsGenerated (s : Loading) : Prop :=
  ∀ c ∈ s.classes, c.IsGenerated Draft.known Draft.IsNullable

theorem field_isGenerated (d : Statement) (s : Loading) (a : Source.Attribute)
    (f : FieldOf Draft) (laidOut : IsLaidOut a) (given : d.field s a = .ok f) :
    f.IsGenerated Draft.known Draft.IsNullable := by
  obtain ⟨escaped, unmarked, name, type, typed⟩ := laidOut
  obtain ⟨named, holds, null, shaped⟩ := d.field_ok s a f given
  have wire : f.wire = a.rename.getD a.name := holds
  -- A type that is not understood yet is nullable as it is written.
  refine .inr ⟨by rw [named, wire]; exact escaped, by rw [wire]; exact unmarked, null, ?_⟩
  rcases shaped with ⟨-, later⟩ | ⟨shape, understood, known⟩
  · rw [later]
    exact ⟨name, type, typed⟩
  · rw [known]
    exact typeShape?_isNullable _ _ _ name type shape (typed ▸ understood)

theorem declaredFields_isGenerated (d : Statement) (s : Loading) (fields : List (FieldOf Draft))
    (generated : d.IsGenerated) (given : d.declaredFields s = .ok fields) :
    ∀ f ∈ fields, f.IsGenerated Draft.known Draft.IsNullable := by
  intro f member
  rcases (d.declares s fields given).source f member with ⟨text, -, rfl⟩ | ⟨a, isAttribute, gives⟩
  · exact .inl ⟨text, rfl⟩
  · exact field_isGenerated d s a f (generated.attributes a isAttribute) gives

/-- Loading a class keeps all classes generated. -/
theorem load_isGenerated (d : Statement) (s s' : Loading) (generated : d.IsGenerated)
    (before : s.IsGenerated) (given : d.load s = .ok s') : s'.IsGenerated := by
  obtain ⟨above, declared, makes, rfl⟩ := d.load_ok s s' given
  intro c member
  -- A new class has its own fields and fields of its bases, which are generated already.
  rcases List.mem_append.mp member with old | new
  · exact before c old
  rw [List.mem_singleton.mp new]
  refine ⟨d.allFields_apart s above declared, fun f listed => ?_, generated.methods⟩
  rcases d.allFields_from s above declared f listed with own | ⟨-, base, -, k, found, inherited⟩
  · exact declaredFields_isGenerated d s declared generated makes.fields f own
  · exact (before k (List.mem_of_getElem? found)).fields f inherited

/-! ## Modules -/

theorem foundation_isGenerated :
    ∀ c ∈ Foundation.classes.map ClassOf.draft, c.IsGenerated Draft.known Draft.IsNullable := by
  intro c member
  obtain ⟨plain, listed, rfl⟩ := List.mem_map.mp member
  have fields : ∀ f ∈ Foundation.pageInfoFields,
      f.draft.IsGenerated Draft.known Draft.IsNullable := by
    intro f member
    simp only [Foundation.pageInfoFields, List.mem_cons, List.not_mem_nil, or_false] at member
    rcases member with rfl | rfl | rfl | rfl | rfl
    · exact .inl ⟨"PageInfo", rfl⟩
    all_goals exact .inr ⟨by decide, by decide, rfl, trivial⟩
  simp only [Foundation.classes, List.mem_cons, List.not_mem_nil, or_false] at listed
  rcases listed with rfl | rfl | rfl | rfl | rfl | rfl | rfl
  case inr.inl =>
    refine ⟨by decide, ?_, by simp [ClassOf.draft, findKey?]⟩
    intro f member
    obtain ⟨g, isField, rfl⟩ := List.mem_map.mp member
    exact fields g isField
  all_goals
    refine ⟨by decide, by simp [ClassOf.draft], ?_⟩
    intro m found
    revert found
    decide +revert

/-- Whether all attributes of a module hold fields of the schema that are not named as the mark is,
and its accessors are named after their targets. -/
structure IsLaidOutModule (m : Source.Module) : Prop where
  contracts : ∀ c ∈ m.contracts, ∀ a ∈ c.attributes, IsLaidOut a
  objects : ∀ c ∈ m.objects, ∀ a ∈ c.attributes, IsLaidOut a
  accessors : ∀ c ∈ m.contracts, ∀ a ∈ c.accessors, a.method ≠ "to_json"

theorem loadClass_isGenerated (m : Source.Module) (laidOut : IsLaidOutModule m) (c : ClassSource)
    (member : c ∈ classSources m) (s s' : Loading) (before : s.IsGenerated)
    (given : loadClass s c = .ok s') : s'.IsGenerated := by
  obtain ⟨places, -, loaded⟩ := (Outcome.bind_ok_iff _ _ _).mp given
  refine load_isGenerated _ s s' ?_ before loaded
  rcases List.mem_append.mp member with contract | object
  · obtain ⟨c, isContract, rfl⟩ := List.mem_map.mp contract
    refine ⟨laidOut.contracts c isContract, fun m found => ?_⟩
    rcases mem_setKeys _ _ _ (findKey?_mem _ _ _ found) with none | listed
    · cases none
    · obtain ⟨a, isAccessor, same⟩ := List.mem_map.mp listed
      exact absurd (Prod.mk.inj same).1 (laidOut.accessors c isContract a isAccessor)
  · obtain ⟨c, isObject, rfl⟩ := List.mem_map.mp object
    exact ⟨laidOut.objects c isObject, fun m found => by cases found⟩

theorem finishDraft_isNullable (s : Loading) (className : String) (draft : Draft) (shape : Shape)
    (nullable : draft.IsNullable) (given : finishDraft s className draft = .ok shape) :
    shape.IsNullable := by
  cases draft with
  | known known =>
    cases given
    exact nullable
  | later type =>
    obtain ⟨name, written, rfl⟩ := nullable
    simp only [finishDraft] at given
    cases understood : typeShape? s.world s.classes (finalMeaning? s className)
        (Source.nullableType name written) with
    | none =>
      rw [understood] at given
      cases given
    | some outcome =>
      rw [understood] at given
      change outcome = _ at given
      rw [given] at understood
      exact typeShape?_isNullable _ _ _ name written shape understood

/-- A finished class has the fields of its draft, each with a shape. -/
theorem finishClass_isGenerated (s : Loading) (c : ClassOf Draft) (finished : Class)
    (generated : c.IsGenerated Draft.known Draft.IsNullable)
    (given : finishClass s c = .ok finished) : finished.IsGenerated id Shape.IsNullable := by
  refine ⟨?_, fun g member => ?_, ?_⟩
  · have names := congrArg (List.map Prod.fst) (finishClass_names s c finished given)
    rw [List.map_map, List.map_map] at names
    exact names ▸ generated.apart
  · obtain ⟨f, isField, shape, drafted, rfl⟩ :=
      (finishClass_fields s c finished given).2 g member
    rcases generated.fields f isField with ⟨text, rfl⟩ | ⟨escaped, unmarked, null, nullable⟩
    · cases drafted
      exact .inl ⟨text, rfl⟩
    · exact .inr ⟨escaped, unmarked, null, finishDraft_isNullable s c.name _ shape nullable drafted⟩
  · obtain ⟨fields, rfl, -⟩ := finishClass_ok s c finished given
    exact generated.methods

theorem load_classes_isGenerated {world : World} (m : Source.Module) (lib : Library)
    (laidOut : IsLaidOutModule m) (given : load m world = .ok lib) :
    ∀ c ∈ lib.classes, c.IsGenerated id Shape.IsNullable := by
  obtain ⟨trace⟩ := load_trace m lib given
  have start : trace.withEnums.IsGenerated := by
    intro c member
    exact foundation_isGenerated c (trace.withEnums_classes ▸ member)
  have classes : trace.withClasses.IsGenerated :=
    Outcome.foldlM_preserves Loading.IsGenerated loadClass _ _ _ start trace.classes
      (loadClass_isGenerated m laidOut)
  intro c member
  obtain ⟨draft, isDraft, finishes⟩ := Outcome.forall₂_right trace.finished_classes c member
  exact finishClass_isGenerated _ draft c (classes draft isDraft) finishes

end Model

/-! ## Laid-out modules -/

namespace Source

theorem attributes_areLaidOut (ctx : Context) (fields : List Field) (attributes : List Attribute)
    (unmarked : ∀ f ∈ fields, f.name ≠ some typenameAlias)
    (given : fields.mapM (attributeOf ctx) = .ok attributes) :
    ∀ a ∈ attributes, Model.IsLaidOut a := by
  intro a member
  obtain ⟨f, isField, gives⟩ := (attributes_ok ctx fields attributes given).2 a member
  obtain ⟨named, escaped, reference, -, typed⟩ := attributeOf_ok ctx f a gives
  refine ⟨escaped, fun marked => ?_, reference, f.type, typed⟩
  exact unmarked f isField (named.trans (congrArg some marked))

theorem LaysOut.isLaidOut {imports : ImportTable} {definitions : List Definition} {m : Module}
    (laysOut : LaysOut imports definitions m)
    (unmarked : ∀ d ∈ definitions, ∀ f ∈ d.fields, f.name ≠ some typenameAlias) :
    Model.IsLaidOutModule m := by
  refine ⟨?_, ?_, ?_⟩
  · intro c member
    obtain ⟨d, isContract, gives⟩ := Outcome.mapM_from _ _ _ laysOut.contracts c member
    obtain ⟨attributes, laidOut, made⟩ := (Outcome.bind_ok_iff _ _ _).mp gives
    cases made
    obtain ⟨definition, isDefinition, found⟩ :=
      List.mem_filterMap.mp (Contract.ordered_mem _ d isContract)
    refine attributes_areLaidOut _ d.fields attributes (fun f isField => ?_) laidOut
    cases definition with
    | contract other =>
      cases found
      exact unmarked _ isDefinition f isField
    | enum _ | object _ => cases found
  · intro c member
    obtain ⟨d, isObject, gives⟩ := Outcome.mapM_from _ _ _ laysOut.objects c member
    obtain ⟨attributes, laidOut, made⟩ := (Outcome.bind_ok_iff _ _ _).mp gives
    cases made
    obtain ⟨definition, listed, found⟩ := List.mem_filterMap.mp isObject
    refine attributes_areLaidOut _ d.fields attributes (fun f isField => ?_) laidOut
    cases definition with
    | object o =>
      cases found
      exact unmarked _ listed f isField
    | enum _ | contract _ => cases found
  · intro c member a isAccessor
    obtain ⟨d, isContract, gives⟩ := Outcome.mapM_from _ _ _ laysOut.contracts c member
    obtain ⟨attributes, laidOut, made⟩ := (Outcome.bind_ok_iff _ _ _).mp gives
    cases made
    obtain ⟨target, -, rfl⟩ := List.mem_map.mp isAccessor
    -- Accessors are named with a prefix that the name of no other method has.
    intro same
    have prefixed := congrArg String.toList same
    rw [String.toList_append] at prefixed
    cases prefixed

end Source

namespace Hook

/-- A filter keeps definitions with their fields. -/
theorem fields_of_runFilters (hooks : List Hook) (definitions : List Definition) :
    ∀ d ∈ runFilters hooks definitions, ∃ given ∈ definitions, d.fields = given.fields := by
  unfold runFilters
  generalize hooks.filterMap filter? = filters
  induction filters generalizing definitions with
  | nil => exact fun d member => ⟨d, member, rfl⟩
  | cons f rest ih =>
    intro d member
    obtain ⟨next, isNext, same⟩ := ih _ d member
    obtain ⟨given, isGiven, rfl⟩ := List.mem_map.mp isNext
    refine ⟨given, List.mem_of_mem_filter isGiven, same.trans ?_⟩
    cases given <;> rfl

end Hook

/-- **The classes of a generated module that loads** have fields under different attributes: the
mark of the class, and fields of the schema that are nullable at every level. -/
theorem loaded_isGenerated {world : Model.World} (m : Module) (setup : Setup)
    (source : Source.Module) (lib : Model.Library)
    (unmarked : ∀ d ∈ m.definitions, ∀ f ∈ d.fields, f.name ≠ some typenameAlias)
    (laidOut : m.source setup = .ok source) (loaded : Model.load source world = .ok lib) :
    ∀ c ∈ lib.classes, c.IsGenerated id Model.Shape.IsNullable := by
  refine Model.load_classes_isGenerated source lib ?_ loaded
  refine (source_laysOut m setup source laidOut).isLaidOut fun d member f isField => ?_
  obtain ⟨given, isGiven, same⟩ := Hook.fields_of_runFilters _ _ d member
  exact unmarked given isGiven f (same ▸ isField)

end GraphQLModels
