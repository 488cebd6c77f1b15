import GraphQLModels.Model.Instance
import GraphQLModels.Proofs.Mappings
import GraphQLModels.Proofs.Outcome

/-!
# Decoding part by part

Decoding succeeds for a list if it succeeds for each item, and for an object if it succeeds for the
member of each field. A choice is decoded as the class that its tag names.
-/

namespace GraphQLModels.Model

namespace Decoded

variable {α β : Type}

theorem inside_ok_iff (step : Step) (r : Decoded α) (value : α) :
    r.inside step = .ok value ↔ r = .ok value :=
  Outcome.mapError_ok_iff _ r value

/-- All parts have values exactly if each has one. -/
theorem all_cons_ok_iff (r : Decoded α) (rest : List (Decoded α)) (values : List α) :
    all (r :: rest) = .ok values ↔ ∃ value others, r = .ok value ∧ all rest = .ok others ∧
      values = value :: others := by
  cases first : r with
  | error problems => cases others : all rest <;> simp [all, others]
  | ok value =>
    cases others : all rest with
    | error problems => simp [all, others]
    | ok known => simp [all, others, eq_comm]

/-- The parts with their values. -/
theorem all_map_ok (read : α → Decoded β) (xs : List α) (values : List β)
    (given : all (xs.map read) = .ok values) :
    ∃ pairs : List (α × β), pairs.map (·.1) = xs ∧ pairs.map (·.2) = values ∧
      ∀ p ∈ pairs, read p.1 = .ok p.2 := by
  induction xs generalizing values with
  | nil =>
    cases given
    exact ⟨[], rfl, rfl, by simp⟩
  | cons x xs ih =>
    obtain ⟨value, others, first, rest, rfl⟩ := (all_cons_ok_iff _ _ _).mp given
    obtain ⟨pairs, rfl, rfl, each⟩ := ih others rest
    exact ⟨(x, value) :: pairs, rfl, rfl, List.forall_mem_cons.mpr ⟨first, each⟩⟩

/-- If every part has one value under a condition, all parts have these values under all
conditions. -/
theorem all_map_ok_iff (read : α → Decoded β) (condition : α → Prop) (value : α → β) (xs : List α)
    (each : ∀ x ∈ xs, ∀ b, read x = .ok b ↔ condition x ∧ b = value x) (values : List β) :
    all (xs.map read) = .ok values ↔ (∀ x ∈ xs, condition x) ∧ values = xs.map value := by
  induction xs generalizing values with
  | nil => simp [all, eq_comm]
  | cons x xs ih =>
    rw [List.forall_mem_cons] at each
    rw [List.map_cons, all_cons_ok_iff, List.forall_mem_cons, List.map_cons]
    simp only [each.1, ih each.2]
    constructor
    · rintro ⟨_, _, ⟨first, rfl⟩, ⟨rest, rfl⟩, rfl⟩
      exact ⟨⟨first, rest⟩, rfl⟩
    · rintro ⟨⟨first, rest⟩, rfl⟩
      exact ⟨_, _, ⟨first, rfl⟩, ⟨rest, rfl⟩, rfl⟩

end Decoded

namespace Library

/-! ## Fields by attribute -/

theorem fieldsOf_eq (lib : Library) (place : Nat) (c : Class)
    (found : lib.class? place = some c) : lib.fieldsOf place = c.fields := by
  rw [fieldsOf, found]
  rfl

/-- A field is found under its attribute if this is not that of another one. -/
theorem field?_of_apart (lib : Library) (place : Nat)
    (apart : ((lib.fieldsOf place).map (·.name)).Nodup) (f : FieldSpec)
    (member : f ∈ lib.fieldsOf place) : lib.field? place f.name = some f := by
  have same : lib.field? place f.name = (lib.fieldsOf place).find? fun g => g.name == f.name := by
    unfold field? fieldsOf
    cases lib.class? place <;> rfl
  rw [same, find?_of_distinct (·.name) apart member]

variable (lib : Library) (form : Form)

theorem itemDecoders_eq (items : List Json) :
    lib.itemDecoders form items = items.map (lib.decode form) := by
  induction items with
  | nil => rfl
  | cons item rest ih => rw [itemDecoders, List.map_cons, ih]

theorem memberDecoders_eq (members : List (String × Json)) :
    lib.memberDecoders form members =
      members.map fun entry => (entry.1, lib.decode form entry.2) := by
  induction members with
  | nil => rfl
  | cons entry rest ih => rw [memberDecoders, List.map_cons, ih]

/-! ## One equation for each shape -/

/-- The ways in which the items of a value are decoded: only an array has any. -/
def itemParts : Json → List (Shape → Decoded Value)
  | .arr items => lib.itemDecoders form items
  | _ => []

/-- The ways in which the members of a value are decoded: only an object has any. -/
def memberParts : Json → Members
  | .obj members => lib.memberDecoders form members
  | _ => []

theorem decode_eq (j : Json) :
    lib.decode form j = lib.decodeWith form j (lib.itemParts form j) (lib.memberParts form j) := by
  cases j <;> rfl

theorem decode_scalar (type : ScalarType) (j : Json) :
    lib.decode form j (.scalar type) = type.read form j := by
  rw [decode_eq]
  rfl

theorem decode_foreign (of : Foreign) (j : Json) :
    lib.decode form j (.foreign of) = lib.world.read of form j := by
  rw [decode_eq]
  rfl

theorem decode_enum (place : Nat) (j : Json) :
    lib.decode form j (.enum place) = lib.decodeMember place j := by
  rw [decode_eq]
  rfl

theorem decode_model (place : Nat) (j : Json) :
    lib.decode form j (.model place) = lib.decodeObject place j (lib.memberParts form j) := by
  rw [decode_eq]
  rfl

theorem decode_choice (places : List Nat) (j : Json) :
    lib.decode form j (.choice places) = lib.decodeChoice places j (lib.memberParts form j) := by
  rw [decode_eq]
  rfl

/-! ## Nullable values and lists -/

theorem decode_optional_null (inner : Shape) :
    lib.decode form .null (.optional inner) = .ok .null := rfl

theorem decode_optional (inner : Shape) (j : Json) (something : j ≠ .null) :
    lib.decode form j (.optional inner) = lib.decode form j inner := by
  rw [decode_eq]
  cases j with
  | null => exact absurd rfl something
  | _ => rfl

theorem decodeEach_ok_iff (items : List (Shape → Decoded Value)) (shape : Shape)
    (values : List Value) :
    decodeEach items shape = .ok values ↔
      Decoded.all (items.map fun decode => decode shape) = .ok values := by
  have from_index : ∀ (start : Nat) (values : List Value),
      Decoded.all ((items.zipIdx start).map fun entry =>
        (entry.1 shape).inside (.index entry.2)) = .ok values ↔
        Decoded.all (items.map fun decode => decode shape) = .ok values := by
    induction items with
    | nil => exact fun _ _ => Iff.rfl
    | cons item rest ih =>
      intro start values
      rw [List.zipIdx_cons, List.map_cons, List.map_cons, Decoded.all_cons_ok_iff,
        Decoded.all_cons_ok_iff]
      simp only [Decoded.inside_ok_iff, ih]
  exact from_index 0 values

theorem decode_list_ok_iff (inner : Shape) (j : Json) (v : Value) :
    lib.decode form j (.list inner) = .ok v ↔ ∃ items values, j = .arr items ∧
      Decoded.all (items.map fun item => lib.decode form item inner) = .ok values ∧
      v = .list values := by
  rw [decode_eq]
  cases j with
  | arr items =>
    change (decodeEach (lib.itemDecoders form items) inner).map .list = .ok v ↔ _
    simp only [Outcome.map_ok_iff, decodeEach_ok_iff, itemDecoders_eq, List.map_map,
      Json.arr.injEq]
    constructor
    · rintro ⟨values, all, rfl⟩
      exact ⟨items, values, rfl, all, rfl⟩
    · rintro ⟨_, values, rfl, all, rfl⟩
      exact ⟨values, all, rfl⟩
  | null | bool _ | int _ | float _ | str _ | obj _ =>
    refine iff_of_false (fun read => ?_) (by simp)
    cases read

/-! ## Objects -/

/-- The member of a document that holds a field. -/
def held? (members : List (String × Json)) (f : FieldSpec) : Option (String × Json) :=
  (members.find? fun entry => entry.1 == f.wire).orElse fun _ =>
    members.find? fun entry => entry.1 == f.name

theorem member?_decoders (members : List (String × Json)) (f : FieldSpec) :
    member? (lib.memberDecoders form members) f =
      (held? members f).map fun entry => (entry.1, lib.decode form entry.2) := by
  unfold member? held?
  rw [memberDecoders_eq, List.find?_map, List.find?_map]
  change Option.orElse (Option.map _ (members.find? fun entry => entry.1 == f.wire)) _ = _
  cases members.find? fun entry => entry.1 == f.wire with
  | some entry => rfl
  | none => rfl

/-- What a field is decoded as: the value of its member, or its initial value. -/
theorem decodeField_ok_iff (members : List (String × Json)) (f : FieldSpec) (name : String)
    (v : Value) :
    decodeField (lib.memberDecoders form members) f = .ok (name, v) ↔ name = f.name ∧
      match held? members f with
      | some entry => lib.decode form entry.2 f.shape = .ok v
      | none => v = f.initial := by
  unfold decodeField
  rw [member?_decoders]
  cases held? members f with
  | none => simp [eq_comm]
  | some entry =>
    simp only [Option.map_some, Outcome.map_ok_iff, Decoded.inside_ok_iff, Prod.mk.injEq]
    constructor
    · rintro ⟨value, read, rfl, rfl⟩
      exact ⟨rfl, read⟩
    · rintro ⟨rfl, read⟩
      exact ⟨v, read, rfl, rfl⟩

/-- Fields are decoded to attributes under their names, in order, each to what it holds. -/
theorem decodeFields_ok (members : List (String × Json)) (fields : List FieldSpec)
    (attributes : List (String × Value))
    (all : Decoded.all (fields.map (decodeField (lib.memberDecoders form members))) =
      .ok attributes) :
    attributes.map (·.1) = fields.map (·.name) ∧ ∀ f ∈ fields, ∃ value,
      (f.name, value) ∈ attributes ∧
      match held? members f with
      | some entry => lib.decode form entry.2 f.shape = .ok value
      | none => value = f.initial := by
  obtain ⟨pairs, rfl, rfl, each⟩ := Decoded.all_map_ok _ _ _ all
  have known : ∀ pair ∈ pairs, pair.2.1 = pair.1.name ∧
      match held? members pair.1 with
      | some entry => lib.decode form entry.2 pair.1.shape = .ok pair.2.2
      | none => pair.2.2 = pair.1.initial := fun pair isPair =>
    (decodeField_ok_iff lib form members pair.1 pair.2.1 pair.2.2).mp (each pair isPair)
  constructor
  · rw [List.map_map, List.map_map]
    exact List.map_congr_left fun pair isPair => (known pair isPair).1
  · intro f isField
    obtain ⟨pair, isPair, rfl⟩ := List.mem_map.mp isField
    obtain ⟨named, holds⟩ := known pair isPair
    exact ⟨pair.2.2, List.mem_map.mpr ⟨pair, isPair, Prod.ext named rfl⟩, holds⟩

theorem decode_model_ok_iff (place : Nat) (j : Json) (v : Value) :
    lib.decode form j (.model place) = .ok v ↔ ∃ members attributes, j = .obj members ∧
      Decoded.all ((lib.fieldsOf place).map (decodeField (lib.memberDecoders form members))) =
        .ok attributes ∧
      v = .object none place attributes := by
  rw [decode_model]
  cases j with
  | obj members =>
    simp only [decodeObject, memberParts, Outcome.map_ok_iff, Json.obj.injEq]
    constructor
    · rintro ⟨attributes, all, rfl⟩
      exact ⟨members, attributes, rfl, all, rfl⟩
    · rintro ⟨_, attributes, rfl, all, rfl⟩
      exact ⟨attributes, all, rfl⟩
  | null | bool _ | int _ | float _ | str _ | arr _ =>
    refine iff_of_false (fun read => ?_) (by simp)
    cases read

/-- An object of a choice is decoded as the class that its tag names. -/
theorem decode_choice_ok_iff (places : List Nat) (j : Json) (v : Value) :
    lib.decode form j (.choice places) = .ok v ↔ ∃ members tag place, j = .obj members ∧
      tagOf? members = some (.str tag) ∧ lib.tagged? places tag = some place ∧
      lib.decode form j (.model place) = .ok v := by
  simp only [decode_choice, decode_model]
  cases j with
  | obj members =>
    simp only [decodeChoice, Json.obj.injEq]
    constructor
    · intro read
      split at read
      · cases read
      · rename_i tag found
        split at read
        · rename_i place named
          exact ⟨members, tag, place, rfl, found, named, (Decoded.inside_ok_iff _ _ _).mp read⟩
        · cases read
      · cases read
    · rintro ⟨_, tag, place, rfl, found, named, read⟩
      rw [found]
      dsimp only
      rw [named]
      exact (Decoded.inside_ok_iff _ _ _).mpr read
  | null | bool _ | int _ | float _ | str _ | arr _ =>
    refine iff_of_false (fun read => ?_) (by simp)
    cases read

/-! ## Marks, enums and nothing -/

theorem decode_literal_ok_iff (text : String) (j : Json) (v : Value) :
    lib.decode form j (.literal text) = .ok v ↔ j = .str text ∧ v = .text text := by
  rw [decode_eq]
  cases j with
  | str s =>
    simp only [decodeWith, Json.str.injEq]
    by_cases same : s = text
    · subst same
      simp [eq_comm]
    · simp [same, Decoded.problem]
  | null | bool _ | int _ | float _ | obj _ | arr _ => simp [decodeWith, Decoded.problem]

theorem decode_null_ok_iff (j : Json) (v : Value) :
    lib.decode form j .null = .ok v ↔ j = .null ∧ v = .null := by
  rw [decode_eq]
  cases j <;> simp [decodeWith, Decoded.problem, eq_comm]

/-- A member of an enum is decoded from its value, and the value leads to the same member again. -/
theorem decode_enum_ok (place : Nat) (j : Json) (v : Value)
    (read : lib.decode form j (.enum place) = .ok v) :
    ∃ enum name value, v = .member enum name value ∧
      lib.decode form (.str value) (.enum place) = .ok v := by
  have member : lib.decodeMember place j = .ok v := by
    rwa [decode_enum] at read
  simp only [decode_enum]
  unfold decodeMember at member
  split at member
  · split at member
    · cases member
    · split at member
      · rename_i e s known _ _ name value found
        cases member
        have same : value = s := by simpa using List.find?_some found
        exact ⟨e.name, name, value, rfl, by simp_all [decodeMember]⟩
      · cases member
  · split at member <;> cases member
  · cases member

end Library

end GraphQLModels.Model
