import GraphQLModels.Model.Attribute
import GraphQLModels.Proofs.ReadingBack

/-!
# The round trip of documents

A document that is read for a class of a loaded module and written again gives a text. Reading this
text gives the same text again exactly if each object of a choice is still told by its tag and no
field holds a number that is not finite: such a number is written as null, and null is left out when
the text has been read.
-/

namespace GraphQLModels

namespace Model.Library

/-! ## Documents for a name -/

theorem choiceShape_isBottom (lib : Library) (places : List Nat) (shape : Shape)
    (given : lib.choiceShape places = .ok shape) : shape.IsBottom := by
  unfold choiceShape at given
  split at given
  · cases given
    trivial
  · cases given

theorem boundShape_isBottom (lib : Library) (binding : Binding) (shape : Shape)
    (given : lib.boundShape binding = .ok shape) : shape.IsBottom := by
  unfold boundShape at given
  split at given
  case h_3 | h_8 =>
    split at given
    · cases given
      trivial
    · cases given
  case h_4 => exact choiceShape_isBottom lib _ shape given
  all_goals
    cases given
    try trivial

theorem documentShape_isBottom (lib : Library) (place : Nat) (shape : Shape)
    (given : lib.documentShape place = .ok shape) : shape.IsBottom := by
  unfold documentShape at given
  split at given
  · cases given
    trivial
  · obtain ⟨binding, -, given⟩ := (Outcome.bind_ok_iff _ _ _).mp given
    exact boundShape_isBottom lib binding shape given
  · obtain ⟨bindings, -, given⟩ := (Outcome.bind_ok_iff _ _ _).mp given
    obtain ⟨places, -, given⟩ := (Outcome.bind_ok_iff _ _ _).mp given
    exact choiceShape_isBottom lib places shape given

theorem fromJson_eq (lib : Library) (name : String) (place : Nat) (shape : Shape)
    (found : lib.lookup name = .ok (.cls place)) (isModel : lib.isModel place = true)
    (document : lib.documentShape place = .ok shape) (text : String) :
    lib.fromJson name text = lib.readAs shape text := by
  unfold fromJson
  rw [found, Outcome.ok_bind]
  dsimp only
  rw [if_pos isModel, document, Outcome.ok_bind]

/-- All documents for a name are read under one shape. -/
theorem fromJson_ok (lib : Library) (name text : String) (v : Value)
    (read : lib.fromJson name text = .ok v) :
    ∃ shape, lib.typeShape name = .ok shape ∧ shape.IsBottom ∧
      ∀ other, lib.fromJson name other = lib.readAs shape other := by
  obtain ⟨binding, found, read⟩ := (Outcome.bind_ok_iff _ _ _).mp read
  split at read
  · rename_i place
    split at read
    · rename_i isModel
      obtain ⟨shape, document, -⟩ := (Outcome.bind_ok_iff _ _ _).mp read
      refine ⟨shape, ?_, documentShape_isBottom lib place shape document,
        lib.fromJson_eq name place shape found isModel document⟩
      unfold typeShape
      rw [found, Outcome.ok_bind]
      dsimp only
      rw [if_pos isModel, document]
    · cases read
  · cases read

theorem readAs_ok_iff (lib : Library) (shape : Shape) (text : String) (v : Value) :
    lib.readAs shape text = .ok v ↔ ∃ j, Json.parse? text = some j ∧ depthOf j ≤ maxDepth ∧
      lib.decode .document j shape = .ok v := by
  unfold readAs
  rw [Outcome.bind_ok_iff]
  simp only [Outcome.mapError_ok_iff, readDocument]
  cases Json.parse? text with
  | none => simp [Decoded.problem]
  | some j =>
    by_cases shallow : depthOf j ≤ maxDepth
    · simp [shallow]
    · simp [shallow, Decoded.problem]

/-- What an object has no attribute for, it has none for when it is settled. -/
theorem attributeOf_settled (lib : Library) (identity : Option Nat) (place : Nat)
    (attributes : List (String × Value)) (name : String) (e : Failure)
    (missing : lib.attributeOf (.object identity place attributes) name = .error e) :
    lib.attributeOf (.object identity place (Value.settledMembers attributes)) name = .error e := by
  have own : (Value.object identity place (Value.settledMembers attributes)).own? name =
      ((Value.object identity place attributes).own? name).map Value.settled := by
    simp only [Value.own?, Value.settledMembers_eq, List.find?_map, Option.map_map]
    rfl
  unfold attributeOf at missing ⊢
  rw [own]
  cases found : (Value.object identity place attributes).own? name with
  | some value =>
    rw [found] at missing
    cases missing
  | none =>
    rw [found] at missing
    exact missing

/-- An object writes itself, and so does every object of its class with the same attributes. -/
theorem call_toJson (lib : Library) (generated : lib.IsGenerated) (v : Value) (text : String)
    (written : lib.call v "to_json" = .ok (.text text)) :
    text = lib.serialize v ∧ (∃ identity place attributes, v = .object identity place attributes) ∧
      lib.call v.settled "to_json" = .ok (.text (lib.serialize v.settled)) := by
  unfold call at written
  split at written
  · cases written
  · rename_i e identity place attributes missing
    split at written
    swap
    · cases written
    rename_i m isMethod
    -- In every class the method of this name is that of the foundation.
    have json : m = .json := by
      obtain ⟨c, inOrder, found⟩ := List.exists_of_findSome?_eq_some isMethod
      obtain ⟨other, -, isClass⟩ := List.mem_filterMap.mp inOrder
      exact (generated c (List.mem_of_getElem? isClass)).methods m found
    rw [json] at written isMethod
    refine ⟨?_, ⟨identity, place, attributes, rfl⟩, ?_⟩
    · cases written
      rfl
    · have still : lib.attributeOf (.object identity place (Value.settledMembers attributes))
          "to_json" = .error e := attributeOf_settled lib identity place attributes _ e missing
      unfold call
      rw [Value.settled, still]
      dsimp only
      rw [isMethod]
      rfl
  · cases written

/-- A text that is written as a value of any type is read as what a shape writes, where both write
the same. -/
theorem parse?_serialize (lib : Library) (shape : Shape) (v : Value)
    (encoded : lib.encode .any v = lib.encode shape v)
    (proper : (lib.encode shape v).IsProper) :
    Json.parse? (lib.serialize v) = some (lib.encode shape v).written := by
  rw [serialize, encoded]
  exact Json.parse?_compact _ proper

/-- **The round trip over the classes of a library.** A text that an object is written as is read
again as what it holds exactly if no tag is hidden, and is then written again exactly if no number is
lost. -/
theorem returns_iff (lib : Library) (generated : lib.IsGenerated) (leaves : lib.world.Returns)
    (name text : String) (v : Value) (first : String) (shape : Shape)
    (shaped : lib.typeShape name = .ok shape)
    (read : lib.fromJson name text = .ok v) (written : lib.call v "to_json" = .ok (.text first)) :
    (∃ again, lib.fromJson name first = .ok again ∧
      lib.call again "to_json" = .ok (.text first)) ↔
      ¬lib.HidesTag shape v ∧ ¬lib.LosesNumber v := by
  obtain ⟨known, shaped', isBottom, from_shape⟩ := fromJson_ok lib name text v read
  obtain rfl := Except.ok.inj (shaped.symm.trans shaped')
  rw [from_shape, readAs_ok_iff] at read
  obtain ⟨j, parsed, shallow, decoded⟩ := read
  have back := decode_returns generated leaves j (Json.parse?_isProper text j parsed) shape v
    isBottom.isCore decoded
  obtain ⟨rfl, ⟨identity, place, attributes, object⟩, rewritten⟩ :=
    call_toJson lib generated v first written
  -- The text is read as the JSON value that it holds.
  have encoded : lib.encode .any v = lib.encode shape v := by
    rw [object]
    rfl
  have something : (lib.encode shape v).written ≠ .null := by
    rw [object]
    nofun
  have parsed_again := lib.parse?_serialize shape v encoded back.proper
  have shallow_again : depthOf (lib.encode shape v).written ≤ maxDepth := by
    rw [depthOf_written]
    exact back.depth.trans shallow
  have read_again : ∀ again, lib.fromJson name (lib.serialize v) = .ok again ↔
      ¬lib.HidesTag shape v ∧ again = v.settled := by
    intro again
    rw [from_shape, readAs_ok_iff, parsed_again, ← back.again something]
    constructor
    · rintro ⟨_, same, -, decoded⟩
      cases same
      exact decoded
    · exact fun decoded => ⟨_, rfl, shallow_again, decoded⟩
  constructor
  · rintro ⟨again, read, same⟩
    obtain ⟨told, rfl⟩ := (read_again again).mp read
    rw [rewritten] at same
    have texts : lib.serialize v.settled = lib.serialize v :=
      Value.text.inj (Except.ok.inj same)
    refine ⟨told, (written_settled_iff lib .any v).mp ?_⟩
    -- The settled value is read from the text, so its own text is read as what it holds.
    have decoded := (back.again something v.settled).mpr ⟨told, rfl⟩
    have proper := (decode_returns generated leaves _ (Json.parse?_isProper _ _ parsed_again) shape
      v.settled isBottom.isCore decoded).proper
    have encoded' : lib.encode .any v.settled = lib.encode shape v.settled := by
      rw [object]
      rfl
    rw [encoded, encoded']
    exact Option.some.inj ((lib.parse?_serialize shape v.settled encoded' proper).symm.trans
      (texts ▸ parsed_again))
  · rintro ⟨told, kept⟩
    refine ⟨v.settled, (read_again _).mpr ⟨told, rfl⟩, ?_⟩
    have texts : lib.serialize v.settled = lib.serialize v := by
      unfold serialize
      rw [← Json.compact_written, (written_settled_iff lib .any v).mpr kept, Json.compact_written]
    rw [rewritten, texts]

end Model.Library

/-- **Documents return.** A document is read for a class of a generated module, and the value is
written. The text is read and written again as it stands exactly if no object of a choice hides its
tag and no field holds a number that is not finite. The names of fields with two underscores in front
are reserved in a schema, that of the tag among them. -/
theorem document_returns_iff (m : Module) (setup : Setup) (source : Source.Module)
    (world : Model.World) (leaves : world.Returns) (lib : Model.Library)
    (unmarked : ∀ d ∈ m.definitions, ∀ f ∈ d.fields, f.name ≠ some typenameAlias)
    (laidOut : m.source setup = .ok source) (loaded : Model.load source world = .ok lib)
    (name text : String) (v : Model.Value) (first : String) (shape : Model.Shape)
    (shaped : lib.typeShape name = .ok shape) (read : lib.fromJson name text = .ok v)
    (written : lib.call v "to_json" = .ok (.text first)) :
    (∃ again, lib.fromJson name first = .ok again ∧
      lib.call again "to_json" = .ok (.text first)) ↔
      ¬lib.HidesTag shape v ∧ ¬lib.LosesNumber v :=
  lib.returns_iff (loaded_isGenerated m setup source lib unmarked laidOut loaded)
    (Model.load_world loaded ▸ leaves) name text v first shape shaped read written

/-! ## A reading -/

/-- A class with a number. -/
def readingSchema : Schema where
  types := [{
    kind := .object, name := some "Reading"
    fields := [{ name := some "value", type := { kind := .scalar, name := some "Float" } }] }]

def readingOptions : Options := { moduleName := "readings" }

def readingModule : Module where
  moduleName := "readings"
  definitions := [.object {
    name := some "Reading", schemaName := some "Reading"
    fields := [{ name := some "value", type := .named (some "float") .scalar }] }]

theorem readingModule_emitted :
    (emit readingOptions readingSchema).outcome = .ok readingModule := rfl

def readingSource : Source.Module where
  title := "readings"
  imports := []
  enums := []
  contracts := []
  objects := [{
    name := some "Reading", schemaName := some "Reading", bases := [.model], description := none
    classVariables := []
    attributes := [{ name := "value", type := .optional (.name "float") }] }]
  aliases := []

theorem readingSource_laidOut : readingModule.source {} = .ok readingSource :=
  source_of_sorted _ _ _ rfl rfl

/-- The class that is loaded. -/
def readingClass : Model.Class where
  name := "Reading"
  home := "generated_models"
  order := [7, 0]
  fields := [Model.typenameSpec "Reading", Model.scalarSpec "value" .float]
  declared := ["typename__", "value"]

def readingLibrary : Model.Library where
  classes := Model.Foundation.classes ++ [readingClass]
  enums := []
  scope := setKey "Reading" (.cls 7) (setKeys Model.initialScope Model.importedScope)
  exported := ["Reading"]

theorem readingLibrary_loaded : Model.load readingSource = .ok readingLibrary := rfl

theorem readingModule_unmarked : ∀ d ∈ readingModule.definitions, ∀ f ∈ d.fields,
    f.name ≠ some typenameAlias := by
  decide

/-- A reading of a number. -/
def reading (x : Number.Binary64) : Model.Value :=
  .object none 7 [("typename__", .text "Reading"), ("value", .float x)]

/-- A reading is read from a document with its number as a text. -/
theorem reading_isRead (number : String) (x : Number.Binary64)
    (known : Number.float? number = some x) :
    readingLibrary.fromJson "Reading" (Json.compact (.obj [("value", .str number)])) =
      .ok (reading x) := by
  have parsed := Json.parse?_compact (.obj [("value", .str number)]) ⟨by simp, trivial, trivial⟩
  have value : Model.ScalarType.readFloat (.str number) = .ok (.float x) := by
    simp only [Model.ScalarType.readFloat, known]
  rw [readingLibrary.fromJson_eq "Reading" 7 (.model 7) rfl rfl rfl, Model.Library.readAs_ok_iff]
  refine ⟨_, parsed, show max 0 0 + 1 ≤ 200 by decide, ?_⟩
  rw [Model.Library.decode_model_ok_iff]
  refine ⟨_, _, rfl, ?_, rfl⟩
  change Model.Decoded.all [.ok ("typename__", .text "Reading"),
    ((Model.ScalarType.readFloat (.str number)).inside (.name "value")).map ("value", ·)] = _
  rw [value]
  rfl

theorem reading_written (x : Number.Binary64) :
    readingLibrary.call (reading x) "to_json" =
      .ok (.text (readingLibrary.serialize (reading x))) := rfl

theorem reading_told (x : Number.Binary64) :
    ¬readingLibrary.HidesTag (.model 7) (reading x) := by
  intro hides
  cases hides with
  | here chosen _ => exact chosen rfl
  | within name value member f _ inner =>
    simp only [List.mem_cons, List.not_mem_nil, or_false, Prod.mk.injEq] at member
    rcases member with ⟨-, rfl⟩ | ⟨-, rfl⟩ <;> cases inner

theorem reading_loses_iff (x : Number.Binary64) :
    readingLibrary.LosesNumber (reading x) ↔ (Model.Value.float x).isLost = true := by
  constructor
  · intro loses
    cases loses with
    | here name value member f _ lost =>
      simp only [List.mem_cons, List.not_mem_nil, or_false, Prod.mk.injEq] at member
      rcases member with ⟨-, rfl⟩ | ⟨-, rfl⟩
      · cases lost
      · exact lost
    | within name value member f _ inner =>
      simp only [List.mem_cons, List.not_mem_nil, or_false, Prod.mk.injEq] at member
      rcases member with ⟨-, rfl⟩ | ⟨-, rfl⟩ <;> cases inner
  · exact fun lost => .here "value" (.float x) (by simp) (Model.scalarSpec "value" .float) rfl lost

/-- A reading of a finite number returns. -/
theorem document_returns_iff_reading :
    ∃ again, readingLibrary.fromJson "Reading"
        (readingLibrary.serialize (reading (.finite false (2 ^ 52) (-51)))) = .ok again ∧
      readingLibrary.call again "to_json" =
        .ok (.text (readingLibrary.serialize (reading (.finite false (2 ^ 52) (-51))))) := by
  refine (document_returns_iff readingModule {} readingSource .closed Model.World.closed_returns
    readingLibrary readingModule_unmarked readingSource_laidOut readingLibrary_loaded "Reading" _ _ _
    (.model 7) rfl (reading_isRead "2" _ rfl) (reading_written _)).mpr ⟨reading_told _, ?_⟩
  rw [reading_loses_iff]
  decide

/-- A document that holds a number that is not finite need not return. -/
theorem document_may_not_return :
    ¬∀ (options : Options) (schema : Schema) (m : Module) (setup : Setup)
      (source : Source.Module) (lib : Model.Library),
      (emit options schema).outcome = .ok m → m.source setup = .ok source →
      Model.load source = .ok lib → ∀ name text v first, lib.fromJson name text = .ok v →
      lib.call v "to_json" = .ok (.text first) →
      ∃ again, lib.fromJson name first = .ok again ∧
        lib.call again "to_json" = .ok (.text first) := by
  intro returns
  have read := reading_isRead "NaN" .nan rfl
  have written := reading_written .nan
  have again := returns readingOptions readingSchema readingModule {} readingSource readingLibrary
    readingModule_emitted readingSource_laidOut readingLibrary_loaded "Reading" _ _ _ read written
  have generated := loaded_isGenerated readingModule {} readingSource readingLibrary
    readingModule_unmarked readingSource_laidOut readingLibrary_loaded
  have kept := ((readingLibrary.returns_iff generated Model.World.closed_returns "Reading" _ _ _
    (.model 7) rfl read written).mp again).2
  exact kept ((reading_loses_iff .nan).mpr rfl)

end GraphQLModels
