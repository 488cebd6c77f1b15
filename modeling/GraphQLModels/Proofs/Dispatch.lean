import GraphQLModels.Model.Attribute
import GraphQLModels.Proofs.BoundNames
import GraphQLModels.Proofs.ContractFields

/-!
# Telling objects apart

An object of a document that is marked with the name of a schema type is decoded under a contract
only if the type is one of its possible types, and then to an object of the class of this type,
which is written with the same mark and narrows to itself and to no other object.
-/

namespace GraphQLModels.Model

namespace Library

/-! ## Marks -/

section

variable {lib : Library} {place : Nat} {name mark : String} (marked : lib.IsMarked place name mark)

include marked

/-- An object of a marked class is written with its mark. -/
theorem IsMarked.encode (attributes : List (String × Value))
    (apart : (attributes.map (·.1)).Nodup) (own : (typenameField, .text mark) ∈ attributes) :
    ∃ entries, (∀ shape, lib.encode shape (.object none place attributes) = .obj entries) ∧
      (typenameAlias, Json.str mark) ∈ entries ∧
      ((∀ f ∈ lib.fieldsOf place, f.wire = typenameAlias → f.name = typenameField) →
        findKey? typenameAlias entries = some (.str mark)) := by
  -- The first member under the name of the mark is the mark, unless a field has its name as well.
  have written : (typenameAlias, Json.str mark) ∈ attributes.filterMap (lib.memberFor? place) :=
    List.mem_filterMap.mpr ⟨_, own, by rw [memberFor?, marked.field]; rfl⟩
  refine ⟨_, fun shape => by rw [Library.encode, encodeAttributes_eq], written, fun only => ?_⟩
  have isFound : ((attributes.filterMap (lib.memberFor? place)).find? fun entry =>
      entry.1 == typenameAlias).isSome :=
    List.find?_isSome.mpr ⟨_, written, beq_self_eq_true typenameAlias⟩
  obtain ⟨entry, first⟩ := Option.isSome_iff_exists.mp isFound
  rw [findKey?, first]
  obtain ⟨⟨other, value⟩, isAttribute, gives⟩ :=
    List.mem_filterMap.mp (List.mem_of_find?_eq_some first)
  have key : entry.1 = typenameAlias := by simpa using List.find?_some first
  unfold memberFor? at gives
  cases field : lib.field? place other with
  | none =>
    rw [field] at gives
    cases gives
  | some f =>
    rw [field] at gives
    dsimp only at gives
    split at gives
    · cases gives
    · cases gives
      obtain ⟨c, found, isField⟩ := Option.bind_eq_some_iff.mp field
      have named : f.name = other := by simpa using List.find?_some isField
      have isMark := only f (by
        rw [fieldsOf, found]
        exact List.mem_of_find?_eq_some isField) key
      cases named.symm.trans isMark
      have same := List.inj_on_of_nodup_map apart isAttribute own rfl
      cases same
      rfl

end

/-! ## Choices -/

/-- What is decoded as one of several classes is decoded as one of them. -/
theorem decode_shapeOfPlaces (lib : Library) (form : Form) (places : List Nat) (j : Json) (v : Value)
    (read : lib.decode form j (shapeOfPlaces places) = .ok v) :
    ∃ place ∈ places, lib.decode form j (.model place) = .ok v := by
  unfold shapeOfPlaces at read
  split at read
  · exact ⟨_, List.mem_singleton.mpr rfl, read⟩
  · obtain ⟨_, _, place, -, -, found, read⟩ := (decode_choice_ok_iff lib form places j v).mp read
    exact ⟨place, List.mem_of_find?_eq_some found, read⟩

section

variable {lib : Library} {possible : List (String × String)} {places : List Nat}
  (are : lib.ArePossible possible places)

include are

end

/-! ## Accessors -/

/-- Whether calling an attribute of a value comes to an accessor that narrows to a target. -/
def Reaches (lib : Library) (v : Value) (name target : String) : Prop :=
  (∃ e, lib.attributeOf v name = .error e) ∧
    ∃ identity place attributes, v = .object identity place attributes ∧
      lib.method? place name = some (.narrow target)

/-- An accessor gives an object of the class that its target is bound to, or of one derived from it,
and null for any other, if the built-in test is not hidden. -/
theorem Reaches.call {lib : Library} {identity : Option Nat} {place : Nat}
    {attributes : List (String × Value)} {name target : String}
    (reaches : lib.Reaches (.object identity place attributes) name target)
    (tests : lib.testsInstances = true) (base : Nat) (bound : lib.binding? target = some (.cls base)) :
    lib.call (.object identity place attributes) name =
      .ok (if lib.isDerived place base then .object identity place attributes else .null) := by
  obtain ⟨⟨e, hidden⟩, _, _, _, same, method⟩ := reaches
  cases same
  unfold Library.call
  rw [hidden]
  dsimp only
  rw [method]
  dsimp only
  rw [perform, narrow, tests, bound]
  rfl

end Library

/-! ## Orders -/

section

variable {imports : ImportTable} {definitions : List Definition} {source : Source.Module}
  {lib : Library} (laysOut : Source.LaysOut imports definitions source)
  (trace : Trace source lib) (apart : NamesApart source)

include laysOut trace apart

/-- The class of an object derives from classes before those of all objects, if all its contracts
are defined: from contracts and from classes of the foundation. -/
theorem bases_lt_objects (step : ClassStep (classSources source) trace.withEnums) (o : ObjectDef)
    (isClass : Source.IsClassOf { imports, definitions } (Contract.ancestors (Contract.ordered
      (definitions.filterMap Definition.contract?))) (.object o) step.source)
    (behind : (Contract.ordered (definitions.filterMap Definition.contract?)).length ≤ step.index)
    (defined : ∀ name ∈ o.contracts, ∃ c : ContractDef,
      .contract c ∈ Source.classDefinitions definitions ∧ c.name = name) :
    ∀ base ∈ step.places, base < Foundation.classes.length +
      (Contract.ordered (definitions.filterMap Definition.contract?)).length := by
  intro base isBase
  obtain ⟨written, isWritten, placed⟩ := Outcome.mapM_from _ _ _ step.bases base isBase
  rcases Source.objectBases_cases _ o written (isClass.ofObject.2 ▸ isWritten) with
    ⟨name, isContract, rfl⟩ | ⟨kind, rfl⟩ | rfl
  · obtain ⟨c, isDefined, rfl⟩ := defined name isContract
    obtain ⟨l, isListed⟩ := List.mem_iff_getElem?.mp isDefined
    have first := (Source.contract_listed definitions l c isListed).1
    obtain ⟨cs, present, isClass⟩ := laysOut.class_of l _ isListed
    -- The name of the contract already means what it means in the end.
    have bound := (trace.binding?_class_at apart step l (by omega) cs present).trans
      (trace.binding?_class apart l cs present)
    rw [isClass.spec.1] at bound
    change findKey? c.name step.before.scope = _ at bound
    rw [basePlace, Loading.binding?, bound] at placed
    cases placed
    omega
  · cases placed
    have within : Foundation.capability kind < Foundation.classes.length := by
      cases kind <;> decide
    omega
  · cases placed
    have within : Foundation.model < Foundation.classes.length := by decide
    omega

end

/-! ## Contracts -/

section

variable {world : World} {imports : ImportTable} {definitions : List Definition}
  {source : Source.Module} {lib : Library} (laysOut : Source.LaysOut imports definitions source)
  (loaded : load source world = .ok lib) (apart : NamesApart source)

include laysOut loaded apart

end

/-- Documents for a model, and lists of them, are read under the shape of its documents. -/
theorem Library.reads_model (lib : Library) (name : String) (place : Nat)
    (bound : lib.binding? name = some (.cls place)) (model : lib.isModel place = true) :
    (∀ text, lib.fromJson name text =
      lib.documentShape place >>= fun shape => lib.readAs shape text) ∧
      ∀ asList text, lib.deserialize name asList text =
        lib.documentShape place >>= fun shape =>
          lib.readAs (if asList then .list shape else shape) text := by
  have named : lib.lookup name = .ok (.cls place) := by rw [lookup, bound]
  constructor
  · intro text
    rw [fromJson, named, Outcome.ok_bind]
    dsimp only
    rw [if_pos model]
  · intro asList text
    rw [deserialize, typeShape, named, Outcome.ok_bind]
    dsimp only
    rw [if_pos model]

/-- What a contract is read as, by itself and in lists, is the shape of its documents. -/
theorem Library.reads_contract (lib : Library) (name : String) (place : Nat) (shape : Shape)
    (bound : lib.binding? name = some (.cls place)) (model : lib.isModel place = true)
    (document : lib.documentShape place = .ok shape) :
    (∀ text, lib.fromJson name text = lib.readAs shape text) ∧
      ∀ asList text, lib.deserialize name asList text =
        lib.readAs (if asList then .list shape else shape) text := by
  obtain ⟨single, items⟩ := lib.reads_model name place bound model
  rw [document] at single items
  exact ⟨single, items⟩

end GraphQLModels.Model

namespace GraphQLModels

/-- A union of objects. -/
def unionType (name : String) (members : List String) : SchemaType where
  kind := .union
  name := name
  possibleTypes := members.map fun member => { kind := .object, name := member }

/-- The contract of the second union. -/
def zooContract : ContractDef where
  kind := .union
  name := "IZoo"
  schemaName := some "Zoo"
  fields := []
  possibleTypes := [("IPet", "IPet"), ("Dog", "Dog")]
  accessors := ["IPet", "Dog"]

def zooModule : Module where
  moduleName := "pets"
  definitions := [
    .contract {
      kind := .union, name := "IPet", schemaName := some "Pet", fields := []
      possibleTypes := [("Dog", "Dog")], accessors := ["Dog"] },
    .contract zooContract,
    .object { name := some "IPet", schemaName := some "IPet", fields := [], contracts := ["IZoo"] },
    .object {
      name := some "Dog", schemaName := some "Dog", fields := [], contracts := ["IPet", "IZoo"] }]

/-- A setup that leaves out the first union. -/
def zooSetup : Setup := { hooks := [.filter { excludedStart := some "Pet" }] }

/-- How the module is laid out, with the names of its accessors. -/
def zooSource (pet dog : String) : Source.Module where
  title := "pets"
  imports := []
  enums := []
  contracts := [{
    name := "IZoo", bases := [.model], description := none, implementers := ["IPet", "Dog"]
    attributes := [], accessors := [⟨pet, "IPet"⟩, ⟨dog, "Dog"⟩] }]
  objects := [
    { name := some "IPet", schemaName := some "IPet", bases := [.contract "IZoo"]
      description := none, classVariables := [], attributes := [] },
    { name := some "Dog", schemaName := some "Dog"
      bases := [.contract "IPet", .contract "IZoo"]
      description := none, classVariables := [], attributes := [] }]
  aliases := [⟨"IZooValue", .tagged ["IPet", "Dog"]⟩]

theorem zooSource_laidOut : zooModule.source zooSetup = .ok (zooSource "as_i_pet" "as_dog") := by
  have laidOut : zooModule.source zooSetup =
      .ok (zooSource ("as_" ++ Text.snakeCase "IPet") ("as_" ++ Text.snakeCase "Dog")) :=
    source_of_sorted _ _ _ rfl rfl
  have pet : Text.snakeCase "IPet" = "i_pet" := by decide +kernel
  have dog : Text.snakeCase "Dog" = "dog" := by decide +kernel
  rw [laidOut, pet, dog]
  rfl

def zooLibrary : Model.Library where
  classes := Model.Foundation.classes ++ [
    { name := "IZoo", home := "generated_models", order := [7, 0]
      implementers := some ["IPet", "Dog"]
      methods := [("as_i_pet", .narrow "IPet"), ("as_dog", .narrow "Dog")] },
    { name := "IPet", home := "generated_models", order := [8, 7, 0]
      fields := [Model.typenameSpec "IPet"], declared := ["typename__"] },
    { name := "Dog", home := "generated_models", order := [9, 8, 7, 0]
      fields := [Model.typenameSpec "Dog"], declared := ["typename__"] }]
  enums := []
  scope := setKeys (setKeys Model.initialScope Model.importedScope)
    [("IZoo", .cls 7), ("IPet", .cls 8), ("Dog", .cls 9), ("IZooValue", .choice [8, 9])]
  exported := ["IZoo", "IPet", "Dog", "IZooValue"]

theorem zooLibrary_loaded : Model.load (zooSource "as_i_pet" "as_dog") = .ok zooLibrary := by
  rfl

end GraphQLModels
