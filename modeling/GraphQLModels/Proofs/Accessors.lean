import GraphQLModels.Proofs.ClassAttributes
import GraphQLModels.Proofs.FoundMethods
import GraphQLModels.Proofs.SnakeCase

/-!
# Accessors of contracts

A contract has a method for each of its possible types, called like the type in lower-case words. Of
two types that read alike in lower-case words only the later one keeps its method, and a field that is
called like a method hides it.
-/

namespace GraphQLModels

/-- Whether two names read alike: once an underscore stands in front of each word but the first, they
differ in the case of letters at most. -/
def Text.ReadsAlike (one other : String) : Prop :=
  lower (String.ofList (setOff one.toList)) = lower (String.ofList (setOff other.toList))

instance (one other : String) : Decidable (Text.ReadsAlike one other) :=
  inferInstanceAs (Decidable (Text.lower _ = Text.lower _))

open Text (ReadsAlike)

/-- The name of the method that narrows a contract to a target. -/
def accessorName (target : String) : String := "as_" ++ Text.snakeCase target

/-- The methods for two targets are one exactly if the targets read alike. -/
theorem accessorName_eq_iff (one other : String) :
    accessorName one = accessorName other ↔ ReadsAlike one other := by
  rw [accessorName, accessorName, String.append_right_inj, Text.snakeCase_eq, Text.snakeCase_eq]
  rfl

theorem toList_accessorName (target : String) :
    (accessorName target).toList = 'a' :: 's' :: '_' :: (Text.snakeCase target).toList := by
  rw [accessorName, String.toList_append]
  rfl

theorem accessorName_begins (target : String) :
    (accessorName target).toList.take 3 = ['a', 's', '_'] := by
  rw [toList_accessorName]
  rfl

/-- A name whose letters begin otherwise is that of no accessor. -/
theorem ne_accessorName (name target : String) (other : name.toList.take 3 ≠ ['a', 's', '_']) :
    accessorName target ≠ name := by
  rintro rfl
  exact other (accessorName_begins target)

/-- Whether fields of some names hide the method for a target: one of them is called like the
method. Escaping brings only one more name there, that of the method for a nameless target. -/
def HidesAccessor (names : List String) (target : String) : Prop :=
  accessorName target ∈ names ∨ target = "" ∧ "as" ∈ names

instance (names : List String) (target : String) : Decidable (HidesAccessor names target) :=
  inferInstanceAs (Decidable (_ ∨ _))

/-- No reserved name begins like an accessor. -/
theorem reserved_not_accessor : ∀ cs ∈ (IdentifierUse.reserved .field).map String.toList,
    cs.take 3 ≠ ['a', 's', '_'] := by
  simp only [IdentifierUse.reserved, keywords, classAttributes, List.map_cons, List.map_nil,
    List.cons_append, List.nil_append, Text.toList_of_eq rfl]
  decide

theorem accessorName_free (target : String) :
    accessorName target ∉ IdentifierUse.reserved .field ∧
      Text.beginsWith (accessorName target) "_" = false := by
  constructor
  · intro taken
    exact reserved_not_accessor _ (List.mem_map_of_mem taken) (accessorName_begins target)
  · rw [Text.beginsWith, toList_accessorName]
    rfl

/-- A name that is escaped to that of an accessor is the same, or the keyword in front of it. -/
theorem escape_eq_accessorName_iff (name target : String) :
    IdentifierUse.field.escape name = accessorName target ↔
      name = accessorName target ∨ target = "" ∧ name = "as" := by
  rw [IdentifierUse.escape_eq_name_iff]
  constructor
  · rintro ((⟨taken, same⟩ | ⟨-, -, same⟩) | ⟨same, -, -⟩)
    · right
      have letters := congrArg String.toList same
      rw [toList_accessorName, String.toList_append] at letters
      rcases List.eq_nil_or_concat (Text.snakeCase target).toList with none | ⟨front, last, split⟩
      · rw [none] at letters
        have isKeyword : name.toList ++ ['_'] = "as".toList ++ ['_'] := letters.symm
        refine ⟨(Text.snakeCase_eq_empty_iff target).mp (String.toList_inj.mp none), ?_⟩
        exact String.toList_inj.mp (List.append_cancel_right isKeyword)
      · -- A reserved name would have to begin like an accessor itself.
        rw [split, List.concat_eq_append] at letters
        have begins : name.toList ++ ['_'] = ('a' :: 's' :: '_' :: front) ++ [last] := letters.symm
        have spelled := (List.append_inj' begins rfl).1
        exact absurd (by rw [spelled]; rfl)
          (reserved_not_accessor _ (List.mem_map_of_mem taken))
    · have letters := congrArg String.toList same
      rw [toList_accessorName, String.toList_append] at letters
      exact absurd (List.cons.inj letters).1 (by decide)
    · exact .inl same
  · rintro (rfl | ⟨rfl, rfl⟩)
    · exact .inr ⟨rfl, accessorName_free target⟩
    · exact .inl (.marked (by decide) (by decide +kernel))

/-- Whether the class of a definition should have the methods of a contract: that of the contract
itself, of an object that lists the contract and of an object that is a possible type of it. -/
inductive ContractDef.Covers (d : ContractDef) : Definition → Prop
  | itself : d.Covers (.contract d)
  | lists {o : ObjectDef} (isContract : d.name ∈ o.contracts) : d.Covers (.object o)
  | possible {o : ObjectDef} {entry : String × String} (isPossible : entry ∈ d.possibleTypes)
      (named : o.name = some entry.2) : d.Covers (.object o)

/-- Whether the accessors of a contract are apart: no two targets read alike, and no field of a class
that should have the accessors hides one. -/
structure ContractDef.HasAccessorsApart (d : ContractDef) (definitions : List Definition) : Prop where
  unlike : d.accessors.Pairwise fun one other => ¬ReadsAlike one other
  shown : ∀ e ∈ Source.classDefinitions definitions, d.Covers e → ∀ target ∈ d.accessors,
    ¬HidesAccessor e.fieldNames target

/-- Different targets of capitalised words do not read alike. -/
theorem unlike_of_capitalised (targets : List String) (distinct : targets.Nodup)
    (capitalised : ∀ target ∈ targets, Text.IsCapitalised target) :
    targets.Pairwise fun one other => ¬ReadsAlike one other := by
  refine List.Pairwise.imp_of_mem ?_ distinct
  intro one other isOne isOther different alike
  refine different (Text.snakeCase_injective one other (capitalised one isOne)
    (capitalised other isOther) ?_)
  rwa [Text.snakeCase_eq, Text.snakeCase_eq]

namespace Source

variable {ctx : Context} {ancestors : Contract.Ancestors}

/-- The class statement of a contract has a method for each target. -/
theorem IsClassOf.accessors {d : ContractDef} {c : Model.ClassSource}
    (isClass : IsClassOf ctx ancestors (.contract d) c) :
    ∃ written, c = .contract written ∧
      written.accessors = d.accessors.map fun target => ⟨accessorName target, target⟩ := by
  cases isClass with
  | contract _ written made =>
    obtain ⟨attributes, -, given⟩ := (Outcome.bind_ok_iff _ _ _).mp made
    cases given
    exact ⟨_, rfl, rfl⟩

/-- A method is called like an attribute of a class exactly if a field of the definition hides it. -/
theorem IsClassOf.accessor_mem_attributeNames {e : Definition} {c : Model.ClassSource}
    (isClass : IsClassOf ctx ancestors e c) (target : String) :
    accessorName target ∈ c.attributeNames ↔ HidesAccessor e.fieldNames target := by
  rw [isClass.mem_attributeNames_iff]
  have noMark : accessorName target ≠ typenameField := ne_accessorName _ target (by decide)
  simp only [noMark, and_false, false_or, escape_eq_accessorName_iff]
  constructor
  · rintro ⟨name, isField, rfl | ⟨nameless, rfl⟩⟩
    · exact .inl isField
    · exact .inr ⟨nameless, isField⟩
  · rintro (isField | ⟨nameless, isField⟩)
    · exact ⟨_, isField, .inl rfl⟩
    · exact ⟨_, isField, .inr ⟨nameless, rfl⟩⟩

/-- The methods of a laid-out contract are different from each other and from the attributes of the
classes that should have them exactly if the accessors are apart. -/
theorem LaysOut.hasAccessorsApart_iff {imports : ImportTable} {definitions : List Definition}
    {m : Module} (laysOut : LaysOut imports definitions m) (d : ContractDef)
    (written : ContractClass) (writes : written.accessors =
      d.accessors.map fun target => ⟨accessorName target, target⟩) :
    ((written.accessors.map (·.method)).Nodup ∧ ∀ (j : Nat) (e : Definition)
      (c : Model.ClassSource), (classDefinitions definitions)[j]? = some e →
      (Model.classSources m)[j]? = some c → d.Covers e →
      ∀ a ∈ written.accessors, a.method ∉ c.attributeNames) ↔
    d.HasAccessorsApart definitions := by
  have distinct : (written.accessors.map (·.method)).Nodup ↔
      d.accessors.Pairwise fun one other => ¬ReadsAlike one other := by
    rw [writes, List.map_map, List.Nodup, List.pairwise_map]
    simp only [Function.comp, ne_eq, accessorName_eq_iff]
  constructor
  · rintro ⟨apart, unlike⟩
    refine ⟨distinct.mp apart, fun e isDefined covers target isTarget hides => ?_⟩
    obtain ⟨j, listed⟩ := List.mem_iff_getElem?.mp isDefined
    obtain ⟨c, present, isClass⟩ := laysOut.class_of j e listed
    have isAccessor : ⟨accessorName target, target⟩ ∈ written.accessors :=
      writes ▸ List.mem_map_of_mem isTarget
    exact unlike j e c listed present covers _ isAccessor
      ((isClass.accessor_mem_attributeNames target).mpr hides)
  · rintro ⟨unlike, shown⟩
    refine ⟨distinct.mpr unlike, fun j e c listed present covers a isAccessor isAttribute => ?_⟩
    obtain ⟨other, present', isClass⟩ := laysOut.class_of j e listed
    cases present.symm.trans present'
    rw [writes] at isAccessor
    obtain ⟨target, isTarget, rfl⟩ := List.mem_map.mp isAccessor
    exact shown e (List.mem_of_getElem? listed) covers target isTarget
      ((isClass.accessor_mem_attributeNames target).mp isAttribute)

end Source

/-! ## Methods that are reached -/

namespace Model

/-- What is found first is a value if nothing else can be found and the value can. -/
theorem findSome?_of_only {α β : Type} (find : α → Option β) (xs : List α) (value : β)
    (only : ∀ x ∈ xs, ∀ other, find x = some other → other = value)
    (somewhere : ∃ x ∈ xs, find x = some value) : xs.findSome? find = some value := by
  cases found : xs.findSome? find with
  | none =>
    obtain ⟨x, member, here⟩ := somewhere
    exact absurd ((List.findSome?_eq_none_iff.mp found x member).symm.trans here) nofun
  | some other =>
    obtain ⟨x, member, here⟩ := List.exists_of_findSome?_eq_some found
    rw [only x member other here]

/-- What is found under a key that always has one value is this value. -/
theorem findKey?_setKeys_of_only {α : Type} (key : String) (value : α)
    (entries : List (String × α)) (listed : (key, value) ∈ entries)
    (only : ∀ other, (key, other) ∈ entries → other = value) :
    findKey? key (setKeys [] entries) = some value := by
  cases found : findKey? key (setKeys [] entries) with
  | none =>
    have isKey := (mem_keys_setKeys [] entries key).mpr
      (.inr (List.mem_map_of_mem (f := Prod.fst) listed))
    exact absurd isKey ((findKey?_eq_none_iff _ _).mp found)
  | some other =>
    rcases mem_setKeys [] entries _ (findKey?_mem key other _ found) with none | member
    · cases none
    · rw [only other member]

theorem keptName_of_public (className name : String) (isPublic : isPrivate name = false) :
    keptName className name = name := by
  simp [keptName, isPublic]

/-- No method of the foundation begins like an accessor. -/
theorem foundation_not_accessor : ∀ c ∈ Foundation.classes, ∀ entry ∈ c.methods,
    entry.1.toList.take 3 ≠ ['a', 's', '_'] := by
  decide

section

variable {world : World} {imports : ImportTable} {definitions : List Definition}
  {source : Source.Module} {lib : Library} (laysOut : Source.LaysOut imports definitions source)
  (loaded : load source world = .ok lib)

include laysOut loaded

/-- The class of a contract has the methods that its statement lists. -/
theorem contract_methods (i : Nat) (d : ContractDef)
    (listed : (Source.classDefinitions definitions)[i]? = some (.contract d)) :
    ∃ k, lib.class? (Foundation.classes.length + i) = some k ∧ k.methods = setKeys []
      (d.accessors.map fun target => (accessorName target, .narrow (keptName d.name target))) := by
  obtain ⟨trace⟩ := load_trace source lib loaded
  obtain ⟨step, -, isClass, k, found, finishes⟩ := laysOut.exists_step trace i _ listed
  obtain ⟨fields, rfl, -⟩ := finishClass_ok _ _ k finishes
  refine ⟨_, found, ?_⟩
  change (step.source.statement step.places).methods = _
  obtain ⟨written, isContract, writes⟩ := isClass.accessors
  have named := isClass.spec.1
  rw [isContract] at named ⊢
  have sameName : written.name = d.name := named
  change setKeys [] (written.accessors.map fun a =>
    (a.method, Method.narrow (keptName written.name a.target))) = _
  rw [writes, List.map_map, sameName]
  rfl

/-- A method of a class that is called like an accessor is one, of a contract. -/
theorem ownMethod?_accessor (place : Nat) (target : String) (method : Method)
    (own : lib.ownMethod? place (accessorName target) = some method) :
    ∃ i d, place = Foundation.classes.length + i ∧
      (Source.classDefinitions definitions)[i]? = some (.contract d) ∧
      ∃ other ∈ d.accessors, ReadsAlike target other ∧
        method = .narrow (keptName d.name other) := by
  obtain ⟨k, found, own⟩ := Option.bind_eq_some_iff.mp own
  have member := findKey?_mem _ _ _ own
  rcases place_cases laysOut loaded place k found with within | ⟨i, e, rfl, listed⟩
  · obtain ⟨k', found', -, methods, -⟩ :=
      foundation_class loaded place _ (List.getElem?_eq_getElem within)
    cases found'.symm.trans found
    rw [methods] at member
    have other := foundation_not_accessor _ (List.getElem_mem within) _ member
    exact absurd (accessorName_begins target) other
  cases e with
  | «enum» _ =>
    rcases List.mem_append.mp (List.mem_of_getElem? listed) with contract | object
    · obtain ⟨_, -, same⟩ := List.mem_map.mp contract
      cases same
    · obtain ⟨_, -, same⟩ := List.mem_map.mp object
      cases same
  | object o =>
    -- The statement of an object has no methods of its own.
    obtain ⟨trace⟩ := load_trace source lib loaded
    obtain ⟨step, -, isClass, k', found', finishes⟩ := laysOut.exists_step trace i _ listed
    cases found'.symm.trans found
    obtain ⟨fields, rfl, -⟩ := finishClass_ok _ _ k finishes
    change _ ∈ (step.source.statement step.places).methods at member
    generalize step.source = written at isClass member
    cases isClass with
    | object _ c made => cases member
  | contract d =>
    obtain ⟨k', found', methods⟩ := contract_methods laysOut loaded i d listed
    cases found'.symm.trans found
    rw [methods] at member
    rcases mem_setKeys _ _ _ member with none | set
    · cases none
    · obtain ⟨other, isTarget, same⟩ := List.mem_map.mp set
      obtain ⟨name, rfl⟩ := Prod.mk.inj same
      exact ⟨i, d, rfl, listed, other, isTarget, (accessorName_eq_iff _ _).mp name.symm, rfl⟩

/-- The class of a contract keeps the method for a target that no other target reads like. -/
theorem contract_keeps_accessor (i : Nat) (d : ContractDef)
    (listed : (Source.classDefinitions definitions)[i]? = some (.contract d)) (target : String)
    (isTarget : target ∈ d.accessors)
    (alone : ∀ other ∈ d.accessors, ReadsAlike target other → other = target) :
    lib.ownMethod? (Foundation.classes.length + i) (accessorName target) =
      some (.narrow (keptName d.name target)) := by
  obtain ⟨k, found, methods⟩ := contract_methods laysOut loaded i d listed
  rw [Library.ownMethod?, found, Option.bind_some, methods]
  refine findKey?_setKeys_of_only _ _ _ (List.mem_map.mpr ⟨target, isTarget, rfl⟩) ?_
  intro method member
  obtain ⟨other, isOther, same⟩ := List.mem_map.mp member
  obtain ⟨name, rfl⟩ := Prod.mk.inj same
  rw [alone other isOther ((accessorName_eq_iff _ _).mp name.symm)]

/-- A class has no field under the name of an accessor that no field above it hides. -/
theorem accessor_not_field (target : String) (place : Nat) (c : Class)
    (found : lib.class? place = some c)
    (shown : ∀ q ∈ c.order, ¬HidesAccessor (namesAt definitions q) target) :
    accessorName target ∉ c.fields.map (·.name) := by
  intro isAttribute
  obtain ⟨f, isField, named⟩ := List.mem_map.mp isAttribute
  rcases (library_hasNames laysOut loaded place c found).escaped f isField with
    mark | ⟨escaped, q, inOrder, isName⟩
  · exact ne_accessorName _ target (by decide) (named.symm.trans mark.1)
  · -- The field is escaped to the name of the accessor, so its own name hides it.
    rcases (escape_eq_accessorName_iff _ _).mp (escaped.symm.trans named) with
      same | ⟨nameless, same⟩
    · exact shown q inOrder (.inl (same ▸ isName))
    · exact shown q inOrder (.inr ⟨nameless, same ▸ isName⟩)

/-- An accessor is reached on the objects of a class that has the contract above it, if no other
accessor above the class reads like it and no field of the class hides it. -/
theorem accessor_reached (i : Nat) (d : ContractDef)
    (listed : (Source.classDefinitions definitions)[i]? = some (.contract d)) (target : String)
    (isTarget : target ∈ d.accessors) (isPublic : isPrivate target = false) (place : Nat) (c : Class)
    (found : lib.class? place = some c) (isAbove : Foundation.classes.length + i ∈ c.order)
    (alone : ∀ l other, (Source.classDefinitions definitions)[l]? = some (.contract other) →
      Foundation.classes.length + l ∈ c.order → ∀ rival ∈ other.accessors,
      ReadsAlike target rival → rival = target)
    (shown : ∀ q ∈ c.order, ¬HidesAccessor (namesAt definitions q) target)
    (identity : Option Nat) (attributes : List (String × Value))
    (held : attributes.map (·.1) = c.fields.map (·.name)) :
    lib.Reaches (.object identity place attributes) (accessorName target) target := by
  constructor
  · -- An attribute of the object itself would be found in front of every method.
    have free : accessorName target ∉ attributes.map (·.1) :=
      held ▸ accessor_not_field laysOut loaded target place c found shown
    exact ⟨_, attributeOf_missing laysOut loaded identity place attributes _ free
      (ne_accessorName _ target (by decide)) (ne_accessorName _ target (by decide))
      (ne_accessorName _ target (by decide))⟩
  · refine ⟨identity, place, attributes, rfl, ?_⟩
    rw [lib.method?_eq place c found]
    -- Whichever class of the order is the first to have the method, it is the one for the target.
    apply findSome?_of_only
    · intro q inOrder method own
      obtain ⟨l, other, rfl, isListed, rival, isRival, alike, rfl⟩ :=
        ownMethod?_accessor laysOut loaded q target method own
      rw [alone l other isListed inOrder rival isRival alike, keptName_of_public _ _ isPublic]
    · refine ⟨_, isAbove, ?_⟩
      rw [contract_keeps_accessor laysOut loaded i d listed target isTarget
        (fun other isOther alike => alone i d listed isAbove other isOther alike),
        keptName_of_public _ _ isPublic]

end

end Model

/-- **One accessor for each target.** The methods of a laid-out contract are different from each other
and from the attributes of the classes that should have them exactly if no two targets read alike and
no field of these classes is called like a method; different targets of capitalised words never read
alike. In a loaded module the contract then has a method for each target, and the objects of the
classes below it reach the method, unless another contract above them or another field that they have
takes its name; there it gives the object itself or null, if no class hides the built-in test for what
is an instance. -/
theorem accessors_apart_iff (m : Module) (setup : Setup) (source : Source.Module)
    (laidOut : m.source setup = .ok source) (i : Nat) (d : ContractDef)
    (listed : (Source.classDefinitions (Hook.runFilters setup.hooks m.definitions))[i]? =
      some (.contract d)) :
    let definitions := Hook.runFilters setup.hooks m.definitions
    (∃ written, (Model.classSources source)[i]? = some (.contract written) ∧
      written.accessors.map (·.target) = d.accessors ∧
      (((written.accessors.map (·.method)).Nodup ∧ ∀ (j : Nat) (e : Definition)
        (c : Model.ClassSource), (Source.classDefinitions definitions)[j]? = some e →
        (Model.classSources source)[j]? = some c → d.Covers e →
        ∀ a ∈ written.accessors, a.method ∉ c.attributeNames) ↔
      d.HasAccessorsApart definitions)) ∧
    (d.accessors.Nodup → (∀ target ∈ d.accessors, Text.IsCapitalised target) →
      d.accessors.Pairwise fun one other => ¬ReadsAlike one other) ∧
    ∀ world lib, Model.load source world = .ok lib → ∀ target ∈ d.accessors,
      (∀ other ∈ d.accessors, ReadsAlike target other → other = target) →
      lib.ownMethod? (Model.Foundation.classes.length + i) (accessorName target) =
          some (.narrow (Model.keptName d.name target)) ∧
        ∀ place c, lib.class? place = some c → Model.Foundation.classes.length + i ∈ c.order →
        (∀ l other, (Source.classDefinitions definitions)[l]? = some (.contract other) →
          Model.Foundation.classes.length + l ∈ c.order → ∀ rival ∈ other.accessors,
          ReadsAlike target rival → rival = target) →
        (∀ q ∈ c.order, ¬HidesAccessor (Model.namesAt definitions q) target) →
        Model.isPrivate target = false → ∀ identity attributes,
        attributes.map (·.1) = c.fields.map (·.name) →
        lib.Reaches (.object identity place attributes) (accessorName target) target ∧
          (lib.testsInstances = true → ∀ base, lib.binding? target = some (.cls base) →
            lib.call (.object identity place attributes) (accessorName target) =
              .ok (if lib.isDerived place base then .object identity place attributes
                else .null)) := by
  intro definitions
  have laysOut := source_laysOut m setup source laidOut
  refine ⟨?_, unlike_of_capitalised d.accessors, ?_⟩
  · obtain ⟨c, present, isClass⟩ := laysOut.class_of i _ listed
    obtain ⟨written, rfl, writes⟩ := isClass.accessors
    refine ⟨written, present, ?_, laysOut.hasAccessorsApart_iff d written writes⟩
    rw [writes, List.map_map]
    exact List.map_id d.accessors
  · intro world lib loaded target isTarget alone
    refine ⟨Model.contract_keeps_accessor laysOut loaded i d listed target isTarget alone, ?_⟩
    intro place c found isAbove noRival shown isPublic identity attributes held
    have reaches := Model.accessor_reached laysOut loaded i d listed target isTarget isPublic place c
      found isAbove noRival shown identity attributes held
    exact ⟨reaches, fun tests base bound => reaches.call tests base bound⟩

/-! ## Targets that read alike -/

/-- A dog of the zoo narrows to itself. -/
theorem accessors_apart_iff_dog :
    zooLibrary.call (.object none 9 [("typename__", .text "Dog")]) (accessorName "Dog") =
      .ok (.object none 9 [("typename__", .text "Dog")]) := by
  have filtered : Hook.runFilters zooSetup.hooks zooModule.definitions =
      zooModule.definitions.drop 1 := rfl
  obtain ⟨-, -, reached⟩ :=
    accessors_apart_iff zooModule zooSetup _ zooSource_laidOut 0 zooContract (by rw [filtered]; rfl)
  rw [filtered] at reached
  have apart : ∀ other ∈ zooContract.accessors, ReadsAlike "Dog" other → other = "Dog" := by
    decide
  obtain ⟨-, narrows⟩ := reached _ _ zooLibrary_loaded "Dog" (by decide) apart
  -- The contract of the zoo is the only one that the filter leaves.
  have only : ∀ (l : Nat) (other : ContractDef),
      (Source.classDefinitions (zooModule.definitions.drop 1))[l]? = some (.contract other) →
      other = zooContract := by
    rintro (_ | _ | _ | l) other listed <;> cases listed
    rfl
  obtain ⟨-, gives⟩ := narrows 9 _ rfl (by decide)
    (fun l other listed _ => only l other listed ▸ apart) (by decide) (by decide)
    none [("typename__", .text "Dog")] rfl
  exact gives (by decide) 9 rfl

/-- Two objects that read alike in a union. -/
def logSchema : Schema where
  types := [unionType "Entry" ["HTTPLog", "HttpLog"], bareType "HTTPLog", bareType "HttpLog"]

def logModule : Module where
  moduleName := "pets"
  definitions := [
    .contract {
      kind := .union, name := "IEntry", schemaName := some "Entry", fields := []
      possibleTypes := [("HTTPLog", "HTTPLog"), ("HttpLog", "HttpLog")]
      accessors := ["HTTPLog", "HttpLog"] },
    .object {
      name := some "HTTPLog", schemaName := some "HTTPLog", fields := [], contracts := ["IEntry"] },
    .object {
      name := some "HttpLog", schemaName := some "HttpLog", fields := [], contracts := ["IEntry"] }]

/-- How the module is laid out, with the names of its accessors. -/
def logSource (first second : String) : Source.Module where
  title := "pets"
  imports := []
  enums := []
  contracts := [{
    name := "IEntry", bases := [.model], description := none
    implementers := ["HTTPLog", "HttpLog"], attributes := []
    accessors := [⟨first, "HTTPLog"⟩, ⟨second, "HttpLog"⟩] }]
  objects := ["HTTPLog", "HttpLog"].map fun name =>
    { name := some name, schemaName := some name, bases := [.contract "IEntry"]
      description := none, classVariables := [], attributes := [] }
  aliases := [⟨"IEntryValue", .tagged ["HTTPLog", "HttpLog"]⟩]

/-- Two targets of an accessor may read alike. -/
theorem accessors_may_meet :
    ¬∀ (options : Options) (schema : Schema) (m : Module) (setup : Setup) (source : Source.Module),
      (emit options schema).outcome = .ok m → m.source setup = .ok source →
      ∀ written ∈ source.contracts, (written.accessors.map (·.method)).Nodup := by
  intro apart
  have laidOut : logModule.source {} =
      .ok (logSource ("as_" ++ Text.snakeCase "HTTPLog") ("as_" ++ Text.snakeCase "HttpLog")) :=
    source_of_sorted _ _ _ rfl rfl
  have distinct := apart petOptions logSchema logModule {} _ rfl laidOut _ List.mem_cons_self
  have alike : Text.snakeCase "HTTPLog" = Text.snakeCase "HttpLog" := by decide +kernel
  rw [alike] at distinct
  exact (List.nodup_cons.mp distinct).1 List.mem_cons_self

end GraphQLModels
