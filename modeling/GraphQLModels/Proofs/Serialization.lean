import GraphQLModels.Model.Instance
import GraphQLModels.Proofs.Scalars

/-!
# Values as their texts hold them

The text of an object holds null for each number that is not finite, and a document that is read
again leaves such a number out when it is written. Apart from these, a value and what its text holds
are written alike.
-/

namespace GraphQLModels.Model

open Number (Binary64)

namespace Value

/-- A claim about values holds if it passes from the parts of each to the whole. -/
theorem induction_on {P : Value → Prop} (value : Value) (null : P .null) (bool : ∀ b, P (.bool b))
    (int : ∀ n, P (.int n)) (float : ∀ x, P (.float x)) (text : ∀ s, P (.text s))
    (decimal : ∀ d, P (.decimal d)) (moment : ∀ m, P (.moment m)) (date : ∀ d, P (.date d))
    (clock : ∀ c, P (.clock c)) (uuid : ∀ s, P (.uuid s))
    (list : ∀ items, (∀ item ∈ items, P item) → P (.list items))
    (dict : ∀ members, (∀ entry ∈ members, P entry.2) → P (.dict members))
    (member : ∀ enum name value, P (.member enum name value))
    (object : ∀ identity place attributes, (∀ entry ∈ attributes, P entry.2) →
      P (.object identity place attributes))
    (record : ∀ name parts, P (.record name parts)) (type : ∀ name, P (.type name))
    (foreign : ∀ of content, P (.foreign of content)) : P value :=
  Value.rec (motive_1 := P) (motive_2 := fun items => ∀ item ∈ items, P item)
    (motive_3 := fun members => ∀ entry ∈ members, P entry.2) (motive_4 := fun entry => P entry.2)
    null bool int float text decimal moment date clock uuid list dict member object
    (fun name parts _ => record name parts) type foreign (by simp)
    (fun _ _ first others => List.forall_mem_cons.mpr ⟨first, others⟩) (by simp)
    (fun _ _ first others => List.forall_mem_cons.mpr ⟨first, others⟩) (fun _ _ value => value) value

/-- Whether a value is a number that is not finite. -/
def isLost : Value → Bool
  | .float (.finite _ _ _) => false
  | .float _ => true
  | _ => false

mutual

/-- The value that the text of a value holds: numbers that are not finite are null. -/
def settled : Value → Value
  | .float (.finite negative mantissa exponent) => .float (.finite negative mantissa exponent)
  | .float _ => .null
  | .list items => .list (settledItems items)
  | .dict members => .dict (settledMembers members)
  | .object identity place attributes => .object identity place (settledMembers attributes)
  | value => value

/-- The items that the texts of items hold. -/
def settledItems : List Value → List Value
  | [] => []
  | item :: rest => item.settled :: settledItems rest

/-- The members that the texts of members hold. -/
def settledMembers : List (String × Value) → List (String × Value)
  | [] => []
  | (name, value) :: rest => (name, value.settled) :: settledMembers rest

end

theorem settledItems_eq (items : List Value) : settledItems items = items.map settled := by
  induction items with
  | nil => rfl
  | cons item rest ih => rw [settledItems, List.map_cons, ih]

theorem settledMembers_eq (members : List (String × Value)) :
    settledMembers members = members.map fun entry => (entry.1, entry.2.settled) := by
  induction members with
  | nil => rfl
  | cons entry rest ih => rw [settledMembers, List.map_cons, ih]

/-- What is settled is null if it was null, or a number that is not finite. -/
theorem isNull_settled (v : Value) : v.settled.isNull = (v.isNull || v.isLost) := by
  cases v with
  | float x => cases x <;> simp [settled, isNull, isLost]
  | _ => simp [settled, isNull, isLost]

/-! ## Values as they stand in documents -/

theorem ofItems_eq (items : List Json) : ofItems items = items.map ofJson := by
  induction items with
  | nil => rfl
  | cons item rest ih => rw [ofItems, List.map_cons, ih]

theorem ofMembers_eq (members : List (String × Json)) :
    ofMembers members = members.map fun entry => (entry.1, ofJson entry.2) := by
  induction members with
  | nil => rfl
  | cons entry rest ih => rw [ofMembers, List.map_cons, ih]

end Value

end GraphQLModels.Model

namespace GraphQLModels.Json

theorem writtenItems_eq (items : List Json) : writtenItems items = items.map written := by
  induction items with
  | nil => rfl
  | cons item rest ih => rw [writtenItems, List.map_cons, ih]

theorem writtenMembers_eq (members : List (String × Json)) :
    writtenMembers members = members.map fun entry => (entry.1, entry.2.written) := by
  induction members with
  | nil => rfl
  | cons entry rest ih => rw [writtenMembers, List.map_cons, ih]

end GraphQLModels.Json

namespace GraphQLModels.Model

namespace Value

theorem settled_ofJson (j : Json) : (ofJson j).settled = ofJson j.written := by
  induction j using Json.induction_on with
  | null | bool _ | int _ | str _ => rfl
  | float x => cases x <;> rfl
  | arr items ih =>
    simp only [ofJson, settled, Json.written, ofItems_eq, settledItems_eq, Json.writtenItems_eq,
      List.map_map, Value.list.injEq]
    exact List.map_congr_left ih
  | obj members ih =>
    simp only [ofJson, settled, Json.written, ofMembers_eq, settledMembers_eq,
      Json.writtenMembers_eq, List.map_map, Value.dict.injEq]
    exact List.map_congr_left fun entry member => congrArg (Prod.mk entry.1) (ih entry member)

end Value

namespace Library

/-! ## Encoding -/

theorem encodeItems_eq (lib : Library) (shape : Shape) (items : List Value) :
    lib.encodeItems shape items = items.map (lib.encode shape) := by
  induction items with
  | nil => rfl
  | cons item rest ih => rw [encodeItems, List.map_cons, ih]

theorem encodeMembers_eq (lib : Library) (members : List (String × Value)) :
    lib.encodeMembers members = members.map fun entry => (entry.1, lib.encode .any entry.2) := by
  induction members with
  | nil => rfl
  | cons entry rest ih => rw [encodeMembers, List.map_cons, ih]

/-- The member that an attribute of an object is written as, if it is written. -/
def memberFor? (lib : Library) (place : Nat) (entry : String × Value) : Option (String × Json) :=
  match lib.field? place entry.1 with
  | some f => if entry.2.isNull then none else some (f.wire, lib.encode f.shape entry.2)
  | none => none

theorem encodeAttributes_eq (lib : Library) (place : Nat) (attributes : List (String × Value)) :
    lib.encodeAttributes place attributes = attributes.filterMap (lib.memberFor? place) := by
  induction attributes with
  | nil => rfl
  | cons entry rest ih =>
    rw [encodeAttributes, List.filterMap_cons, memberFor?]
    cases lib.field? place entry.1 with
    | none => exact ih
    | some f =>
      dsimp only
      split
      · exact ih
      · rw [ih]

theorem scalar?_item (shape : Shape) (any : shape.scalar? = some .any) :
    shape.item.scalar? = some .any := by
  induction shape with
  | scalar _ => rfl
  | optional inner ih => exact ih any
  | null | literal _ | enum _ | model _ | choice _ | list _ | foreign _ => cases any

/-- A value of any type is written as it stands in a document. -/
theorem encode_ofJson (lib : Library) (j : Json) (shape : Shape) (any : shape.scalar? = some .any) :
    lib.encode shape (.ofJson j) = j := by
  induction j using Json.induction_on generalizing shape with
  | null | float _ | str _ => rfl
  | bool b => simp only [Value.ofJson, encode, Shape.encodeBool, any]
  | int n => simp only [Value.ofJson, encode, Shape.encodeInt, any]
  | arr items ih =>
    rw [Value.ofJson, encode, encodeItems_eq, Value.ofItems_eq, List.map_map, Json.arr.injEq]
    have same : ∀ item ∈ items, lib.encode shape.item (.ofJson item) = item := fun item member =>
      ih item member _ (scalar?_item shape any)
    exact (List.map_congr_left same).trans (List.map_id' items)
  | obj members ih =>
    rw [Value.ofJson, encode, encodeMembers_eq, Value.ofMembers_eq, List.map_map, Json.obj.injEq]
    have same : ∀ entry ∈ members, (entry.1, lib.encode .any (.ofJson entry.2)) = entry :=
      fun entry member => congrArg (Prod.mk entry.1) (ih entry member .any rfl)
    exact (List.map_congr_left same).trans (List.map_id' members)

/-! ## Scalars -/

/-- What is read as a scalar is written as something that is read as the same scalar, unless it is a
number that is not finite: this one is written as null. -/
theorem scalar_readAgain (lib : Library) (type : ScalarType) (shape : Shape)
    (scalar : shape.scalar? = some type) (j : Json) (proper : j.IsProper) (v : Value)
    (read : type.read .document j = .ok v) :
    (lib.encode shape v).IsProper ∧ depthOf (lib.encode shape v) ≤ depthOf j ∧
      ((lib.encode shape v).written = .null ∧ v.settled = .null ∨
        (lib.encode shape v).written ≠ .null ∧
          type.read .document (lib.encode shape v).written = .ok v.settled) := by
  cases type with
  | text =>
    obtain ⟨s, rfl⟩ := ScalarType.readText_ok j v read
    exact ⟨trivial, Nat.zero_le _, .inr ⟨nofun, rfl⟩⟩
  | int =>
    obtain ⟨n, rfl⟩ := ScalarType.readInt_ok j v read
    have written : lib.encode shape (.int n) = .int n := by
      simp only [encode, Shape.encodeInt, scalar]
    rw [written]
    exact ⟨trivial, Nat.zero_le _, .inr ⟨nofun, rfl⟩⟩
  | float =>
    obtain ⟨x, canonical, rfl⟩ := ScalarType.readFloat_ok j v proper read
    refine ⟨canonical, Nat.zero_le _, ?_⟩
    -- Only a number that is not finite is written as null.
    cases x with
    | finite negative mantissa exponent => exact .inr ⟨nofun, rfl⟩
    | infinite _ | nan => exact .inl ⟨rfl, rfl⟩
  | bool =>
    obtain ⟨b, rfl⟩ := ScalarType.readBool_ok j v read
    have written : lib.encode shape (.bool b) = .bool b := by
      simp only [encode, Shape.encodeBool, scalar]
    rw [written]
    exact ⟨trivial, Nat.zero_le _, .inr ⟨nofun, rfl⟩⟩
  | decimal =>
    obtain ⟨d, rfl⟩ := ScalarType.readDecimal_ok _ j v read
    exact ⟨trivial, Nat.zero_le _, .inr ⟨nofun, ScalarType.readDecimal_text .document d⟩⟩
  | moment =>
    obtain ⟨m, valid, rfl⟩ := ScalarType.readMoment_ok j v read
    exact ⟨trivial, Nat.zero_le _, .inr ⟨nofun, ScalarType.readMoment_text m valid⟩⟩
  | date =>
    obtain ⟨d, valid, rfl⟩ := ScalarType.readDate_ok j v read
    exact ⟨trivial, Nat.zero_le _, .inr ⟨nofun, ScalarType.readDate_text d valid⟩⟩
  | clock =>
    obtain ⟨c, valid, rfl⟩ := ScalarType.readClock_ok j v read
    exact ⟨trivial, Nat.zero_le _, .inr ⟨nofun, ScalarType.readClock_text c valid⟩⟩
  | uuid =>
    obtain ⟨ds, length, hex, rfl⟩ := ScalarType.readUuid_ok j v read
    exact ⟨trivial, Nat.zero_le _, .inr ⟨nofun, ScalarType.readUuid_text ds length hex⟩⟩
  | any =>
    cases read
    rw [encode_ofJson lib j shape scalar, Value.settled_ofJson]
    refine ⟨proper, le_rfl, ?_⟩
    by_cases none : j.written = .null
    · exact .inl ⟨none, by rw [none]; rfl⟩
    · exact .inr ⟨none, rfl⟩

/-! ## Numbers that are lost -/

/-- Whether a field of some object in a value holds a number that is not finite. -/
inductive LosesNumber (lib : Library) : Value → Prop where
  | here {identity : Option Nat} {place : Nat} {attributes : List (String × Value)}
      (name : String) (value : Value) (member : (name, value) ∈ attributes)
      (f : FieldSpec) (field : lib.field? place name = some f) (lost : value.isLost = true) :
      LosesNumber lib (.object identity place attributes)
  | within {identity : Option Nat} {place : Nat} {attributes : List (String × Value)}
      (name : String) (value : Value) (member : (name, value) ∈ attributes)
      (f : FieldSpec) (field : lib.field? place name = some f) (inner : LosesNumber lib value) :
      LosesNumber lib (.object identity place attributes)
  | item {items : List Value} (value : Value) (member : value ∈ items)
      (inner : LosesNumber lib value) : LosesNumber lib (.list items)
  | entry {members : List (String × Value)} (name : String) (value : Value)
      (member : (name, value) ∈ members) (inner : LosesNumber lib value) :
      LosesNumber lib (.dict members)

/-- Two choices from one list, of which the first chooses nothing where the second chooses nothing,
give the same only if they agree. -/
theorem filterMap_eq_iff {α β : Type} (f g : α → Option β) (xs : List α)
    (fewer : ∀ x ∈ xs, g x = none → f x = none) :
    xs.filterMap f = xs.filterMap g ↔ ∀ x ∈ xs, f x = g x := by
  -- What is chosen from less cannot come to more values.
  have shorter : ∀ ys : List α, (∀ x ∈ ys, g x = none → f x = none) →
      (ys.filterMap f).length ≤ (ys.filterMap g).length := by
    intro ys
    induction ys with
    | nil => exact fun _ => le_rfl
    | cons y ys ih =>
      intro fewer
      rw [List.forall_mem_cons] at fewer
      have rest := ih fewer.2
      rw [List.filterMap_cons, List.filterMap_cons]
      cases chosen : g y with
      | none =>
        rw [fewer.1 chosen]
        exact rest
      | some b =>
        cases f y with
        | none => exact Nat.le_succ_of_le rest
        | some a => exact Nat.succ_le_succ rest
  induction xs with
  | nil => simp
  | cons x xs ih =>
    rw [List.forall_mem_cons] at fewer ⊢
    refine Iff.trans ?_ (and_congr_right' (ih fewer.2))
    cases chosen : g x with
    | none =>
      have also := fewer.1 chosen
      rw [List.filterMap_cons_none chosen, List.filterMap_cons_none also]
      simp [also]
    | some b =>
      rw [List.filterMap_cons_some chosen]
      cases other : f x with
      | none =>
        rw [List.filterMap_cons_none other]
        refine iff_of_false (fun same => ?_) (by simp)
        have longer := congrArg List.length same
        have rest := shorter xs fewer.2
        rw [List.length_cons] at longer
        omega
      | some a =>
        rw [List.filterMap_cons_some other]
        simp

theorem losesNumber_list (lib : Library) (items : List Value) :
    lib.LosesNumber (.list items) ↔ ∃ item ∈ items, lib.LosesNumber item := by
  constructor
  · intro loses
    cases loses with
    | item value member inner => exact ⟨value, member, inner⟩
  · rintro ⟨value, member, inner⟩
    exact .item value member inner

theorem losesNumber_dict (lib : Library) (members : List (String × Value)) :
    lib.LosesNumber (.dict members) ↔ ∃ entry ∈ members, lib.LosesNumber entry.2 := by
  constructor
  · intro loses
    cases loses with
    | entry name value member inner => exact ⟨(name, value), member, inner⟩
  · rintro ⟨⟨name, value⟩, member, inner⟩
    exact .entry name value member inner

theorem losesNumber_object (lib : Library) (identity : Option Nat) (place : Nat)
    (attributes : List (String × Value)) :
    lib.LosesNumber (.object identity place attributes) ↔ ∃ entry ∈ attributes,
      (lib.field? place entry.1).isSome ∧ (entry.2.isLost = true ∨ lib.LosesNumber entry.2) := by
  constructor
  · intro loses
    cases loses with
    | here name value member f field lost =>
      exact ⟨(name, value), member, by rw [field]; rfl, .inl lost⟩
    | within name value member f field inner =>
      exact ⟨(name, value), member, by rw [field]; rfl, .inr inner⟩
  · rintro ⟨⟨name, value⟩, member, isField, lost⟩
    obtain ⟨f, field⟩ := Option.isSome_iff_exists.mp isField
    rcases lost with lost | inner
    · exact .here name value member f field lost
    · exact .within name value member f field inner

/-- What an attribute is written as when it is settled: nothing, if it was nothing or the number in
it is not finite. -/
theorem memberFor?_settled (lib : Library) (place : Nat) (name : String) (v : Value) :
    lib.memberFor? place (name, v.settled) =
      if v.isLost then none
      else (lib.field? place name).bind fun f =>
        if v.isNull then none else some (f.wire, lib.encode f.shape v.settled) := by
  unfold memberFor?
  rw [Value.isNull_settled]
  cases lib.field? place name with
  | none => simp
  | some f => cases v.isLost <;> simp

theorem memberFor?_lost (lib : Library) (place : Nat) (name : String) (v : Value) (f : FieldSpec)
    (field : lib.field? place name = some f) (lost : v.isLost = true) :
    lib.memberFor? place (name, v) = some (f.wire, lib.encode f.shape v) := by
  have something : v.isNull = false := by
    cases v <;> first | rfl | cases lost
  simp only [memberFor?, field, something, Bool.false_eq_true, if_false]

theorem not_losesNumber_null (lib : Library) (v : Value) (null : v.isNull = true) :
    ¬lib.LosesNumber v := by
  cases v with
  | null => nofun
  | _ => cases null

/-- **A value and what its text holds are written alike** exactly if no field holds a number that is
not finite. -/
theorem written_settled_iff (lib : Library) (shape : Shape) (v : Value) :
    (lib.encode shape v.settled).written = (lib.encode shape v).written ↔ ¬lib.LosesNumber v := by
  induction v using Value.induction_on generalizing shape with
  | null | bool _ | int _ | text _ | decimal _ | moment _ | date _ | clock _ | uuid _ | member _ _ _
    | record _ _ | type _ | foreign _ _ => exact iff_of_true rfl nofun
  | float x => cases x <;> exact iff_of_true rfl nofun
  | list items ih =>
    rw [Value.settled, encode, encode, encodeItems_eq, encodeItems_eq, Value.settledItems_eq,
      Json.written, Json.written, Json.writtenItems_eq, Json.writtenItems_eq, Json.arr.injEq,
      List.map_map, List.map_map, List.map_map, List.map_inj_left, losesNumber_list]
    push Not
    exact forall₂_congr fun item member => ih item member shape.item
  | dict members ih =>
    rw [Value.settled, encode, encode, encodeMembers_eq, encodeMembers_eq, Value.settledMembers_eq,
      Json.written, Json.written, Json.writtenMembers_eq, Json.writtenMembers_eq, Json.obj.injEq,
      List.map_map, List.map_map, List.map_map, List.map_inj_left, losesNumber_dict]
    push Not
    refine forall₂_congr fun entry member => ?_
    simpa using ih entry member .any
  | object identity place attributes ih =>
    rw [Value.settled, encode, encode, encodeAttributes_eq, encodeAttributes_eq,
      Value.settledMembers_eq, Json.written, Json.written, Json.writtenMembers_eq,
      Json.writtenMembers_eq, Json.obj.injEq, List.filterMap_map, List.map_filterMap,
      List.map_filterMap, filterMap_eq_iff, losesNumber_object]
    · push Not
      refine forall₂_congr fun entry member => ?_
      change (lib.memberFor? place (entry.1, entry.2.settled)).map _ = _ ↔ _
      rw [memberFor?_settled]
      -- A lost number is null in the settled object, so its member is left out.
      by_cases lost : entry.2.isLost = true
      · cases field : lib.field? place entry.1 with
        | none => simp [memberFor?, field, lost]
        | some f => simp [memberFor?_lost lib place entry.1 entry.2 f field lost, lost]
      · cases field : lib.field? place entry.1 with
        | none => simp [memberFor?, field, lost]
        | some f =>
          have inner := ih entry member f.shape
          by_cases null : entry.2.isNull = true
          · simp [memberFor?, field, lost, null, not_losesNumber_null lib entry.2 null]
          · simp [memberFor?, field, lost, null, inner]
    · intro entry member
      change (lib.memberFor? place entry).map _ = none →
        (lib.memberFor? place (entry.1, entry.2.settled)).map _ = none
      rw [Option.map_eq_none_iff, Option.map_eq_none_iff, memberFor?_settled]
      unfold memberFor?
      cases lib.field? place entry.1 with
      | none => simp
      | some f => by_cases null : entry.2.isNull = true <;> simp [null]

end Library

end GraphQLModels.Model
