import GraphQLModels.Model.Attribute
import GraphQLModels.Proofs.ClassHeaders
import GraphQLModels.Proofs.ContractShapes
import GraphQLModels.Proofs.Dispatch
import GraphQLModels.Proofs.NullableFields
import GraphQLModels.Proofs.Subtyping

/-!
# Methods of connections

A method is searched along the order of a class. Generated classes have no methods but the accessors
of contracts, so a connection has all it can do from the foundation; and there its capability comes
before the classes that the capability is derived from.
-/

namespace GraphQLModels.Model

/-! ## The first that is found -/

/-- Where nothing is found but at the items of a list that is kept in another, the same is found
first in both. -/
theorem findSome?_of_sublist {α β : Type} (find : α → Option β) (xs ys : List α)
    (kept : xs.Sublist ys) (distinct : ys.Nodup) (only : ∀ y ∈ ys, (find y).isSome → y ∈ xs) :
    ys.findSome? find = xs.findSome? find := by
  induction kept with
  | slnil => rfl
  | @cons xs ys y kept ih =>
    rw [List.nodup_cons] at distinct
    -- An item that is passed over does not come again.
    have nothing : find y = none := by
      by_contra something
      have isItem := only y List.mem_cons_self (Option.isSome_iff_ne_none.mpr something)
      exact distinct.1 (kept.subset isItem)
    rw [List.findSome?_cons, nothing]
    exact ih distinct.2 fun other member => only other (List.mem_cons_of_mem _ member)
  | @cons_cons xs ys x kept ih =>
    rw [List.nodup_cons] at distinct
    have rest : ys.findSome? find = xs.findSome? find := ih distinct.2 fun y member some => by
      rcases List.mem_cons.mp (only y (List.mem_cons_of_mem _ member) some) with rfl | isItem
      · exact absurd member distinct.1
      · exact isItem
    rw [List.findSome?_cons, List.findSome?_cons, rest]

namespace Library

/-- The method that the class at a place has of its own. -/
def ownMethod? (lib : Library) (place : Nat) (name : String) : Option Method :=
  (lib.class? place).bind fun c => findKey? name c.methods

/-- A method is the first one in the order of the class. -/
theorem method?_eq (lib : Library) (place : Nat) (c : Class) (found : lib.class? place = some c)
    (name : String) : lib.method? place name = c.order.findSome? (lib.ownMethod? · name) := by
  rw [method?, orderOf, found, Option.map_some, Option.getD_some, ← List.head?_filterMap,
    List.filterMap_filterMap, List.head?_filterMap]
  rfl

end Library

/-! ## What a class has of its own -/

/-- A class of the foundation is in every library with its order, its methods and its variables. -/
theorem foundation_class {world : World} {m : Source.Module} {lib : Library}
    (loaded : load m world = .ok lib) (place : Nat) (c : Class)
    (placed : Foundation.classes[place]? = some c) :
    ∃ k, lib.class? place = some k ∧ k.order = c.order ∧ k.methods = c.methods ∧
      k.classVariables = c.classVariables := by
  obtain ⟨trace⟩ := load_trace m lib loaded
  obtain ⟨k, found, finishes⟩ :=
    trace.finished_class place _ (trace.foundation_class place c placed)
  obtain ⟨fields, rfl, -⟩ := finishClass_ok _ _ k finishes
  exact ⟨_, found, rfl, rfl, rfl⟩

section

variable {world : World} {imports : ImportTable} {definitions : List Definition}
  {source : Source.Module} {lib : Library} (laysOut : Source.LaysOut imports definitions source)
  (loaded : load source world = .ok lib)

include laysOut loaded

/-- What a class has of its own is that of a class of the foundation, or accessors and the names of
node and edge types. -/
theorem class_members (place : Nat) (k : Class) (found : lib.class? place = some k) :
    (∃ c, Foundation.classes[place]? = some c ∧ k.methods = c.methods ∧
        k.classVariables = c.classVariables) ∨
      (∀ entry ∈ k.methods, ∃ target, entry.1 = "as_" ++ target) ∧
        ∀ entry ∈ k.classVariables, entry.1 = "node_type_name" ∨ entry.1 = "edge_type_name" := by
  rcases place_cases laysOut loaded place k found with within | ⟨i, e, rfl, listed⟩
  · obtain ⟨k', found', -, methods, constants⟩ :=
      foundation_class loaded place _ (List.getElem?_eq_getElem within)
    cases found'.symm.trans found
    exact .inl ⟨_, List.getElem?_eq_getElem within, methods, constants⟩
  obtain ⟨trace⟩ := load_trace source lib loaded
  obtain ⟨step, -, isClass, k', found', finishes⟩ := laysOut.exists_step trace i e listed
  cases found'.symm.trans found
  obtain ⟨fields, rfl, -⟩ := finishClass_ok _ _ k finishes
  -- Completing a class changes its fields alone, so the rest is what its statement says.
  right
  change (∀ entry ∈ (step.source.statement step.places).methods, _) ∧
    ∀ entry ∈ (step.source.statement step.places).classVariables, _
  generalize step.source = written at isClass
  cases isClass with
  | contract d c made =>
    refine ⟨fun entry member => ?_, fun entry member => (List.not_mem_nil member).elim⟩
    obtain ⟨attributes, -, given⟩ := (Outcome.bind_ok_iff _ _ _).mp made
    cases given
    rcases mem_setKeys _ _ _ member with none | set
    · cases none
    · obtain ⟨a, isAccessor, rfl⟩ := List.mem_map.mp set
      obtain ⟨target, -, rfl⟩ := List.mem_map.mp isAccessor
      exact ⟨_, rfl⟩
  | object o c made =>
    refine ⟨fun entry member => (List.not_mem_nil member).elim, fun entry member => ?_⟩
    obtain ⟨attributes, -, given⟩ := (Outcome.bind_ok_iff _ _ _).mp made
    cases given
    rcases mem_setKeys _ _ _ member with none | set
    · cases none
    · obtain ⟨v, isVariable, rfl⟩ := List.mem_map.mp set
      obtain ⟨c, -, ofCapability⟩ := List.mem_flatMap.mp isVariable
      rcases List.mem_cons.mp ofCapability with rfl | ofEdge
      · exact .inl rfl
      · obtain ⟨edge, -, rfl⟩ := Option.map_eq_some_iff.mp (Option.mem_toList.mp ofEdge)
        exact .inr rfl

/-- A method that is no accessor is one of the foundation. -/
theorem ownMethod?_eq (place : Nat) (name : String) (plain : ∀ target, name ≠ "as_" ++ target) :
    lib.ownMethod? place name = Foundation.library.ownMethod? place name := by
  cases placed : Foundation.classes[place]? with
  | some c =>
    obtain ⟨k, found, -, methods, -⟩ := foundation_class loaded place c placed
    have isClass : Foundation.library.class? place = some c := placed
    rw [Library.ownMethod?, Library.ownMethod?, found, isClass, Option.bind_some, Option.bind_some,
      methods]
  | none =>
    have isClass : Foundation.library.class? place = none := placed
    rw [Library.ownMethod?, Library.ownMethod?, isClass, Option.bind_none]
    refine Option.bind_eq_none_iff.mpr fun k found => (findKey?_eq_none_iff _ _).mpr fun has => ?_
    obtain ⟨entry, member, named⟩ := List.mem_map.mp has
    rcases class_members laysOut loaded place k found with ⟨c, isPlaced, -⟩ | ⟨accessors, -⟩
    · cases placed.symm.trans isPlaced
    · obtain ⟨target, same⟩ := accessors entry member
      exact plain target (named.symm.trans same)

/-- The variables of classes are the names of node and edge types. -/
theorem classVariable?_eq_none (place : Nat) (name : String) (noNode : name ≠ "node_type_name")
    (noEdge : name ≠ "edge_type_name") : lib.classVariable? place name = none := by
  refine List.findSome?_eq_none_iff.mpr fun k isAbove => ?_
  obtain ⟨q, -, found⟩ := List.mem_filterMap.mp isAbove
  refine (findKey?_eq_none_iff _ _).mpr fun isVariable => ?_
  obtain ⟨entry, member, rfl⟩ := List.mem_map.mp isVariable
  have named : entry.1 = "node_type_name" ∨ entry.1 = "edge_type_name" := by
    rcases class_members laysOut loaded q k found with ⟨c, placed, -, constants⟩ | ⟨-, constants⟩
    · have all : ∀ c ∈ Foundation.classes, ∀ entry ∈ c.classVariables,
          entry.1 = "node_type_name" ∨ entry.1 = "edge_type_name" := by
        decide
      exact all c (List.mem_of_getElem? placed) entry (constants ▸ member)
    · exact constants entry member
  exact named.elim noNode noEdge

/-- An object has nothing under a name that neither its attributes nor the variables of its class
have. -/
theorem attributeOf_missing (identity : Option Nat) (place : Nat)
    (attributes : List (String × Value)) (name : String) (free : name ∉ attributes.map (·.1))
    (noNode : name ≠ "node_type_name") (noEdge : name ≠ "edge_type_name")
    (noList : name ≠ implementersName) :
    lib.attributeOf (.object identity place attributes) name = .error (.noAttribute name) := by
  have own : (Value.object identity place attributes).own? name = none :=
    (findKey?_eq_none_iff _ _).mpr free
  have shared : lib.sharedAttribute? place name = none := by
    rw [Library.sharedAttribute?, if_neg (by simpa using noList),
      classVariable?_eq_none laysOut loaded place name noNode noEdge]
    rfl
  unfold Library.attributeOf
  rw [own]
  dsimp only
  rw [shared]

end

/-! ## Names of classes -/

section

variable {m : Source.Module} {lib : Library} (trace : Trace m lib)
  (distinct : (m.exported.map nameText).Nodup)

include distinct

/-- While a class is loaded, the name of another means this class if that stands before it, and still
what it meant at the start if not. -/
theorem Trace.class_before (step : ClassStep (classSources m) trace.withEnums) (i : Nat)
    (c : ClassSource) (present : (classSources m)[i]? = some c) :
    i < step.index ∧
        findKey? c.name step.before.scope = some (.cls (Foundation.classes.length + i)) ∨
      step.index ≤ i ∧
        findKey? c.name step.before.scope = findKey? c.name trace.started.scope := by
  have apart := namesApart m distinct
  by_cases earlier : i < step.index
  · refine .inl ⟨earlier, ?_⟩
    rw [trace.binding?_class_at apart step i earlier c present,
      trace.binding?_class apart i c present]
  · -- Neither the enums nor the classes up to here have the name.
    refine .inr ⟨Nat.le_of_not_lt earlier, ?_⟩
    have once := (exported_perm_binders m).nodup_iff.mp distinct
    rw [flatMap_names, List.nodup_append] at once
    have isClass := List.mem_of_getElem? present
    have enums : findKey? c.name trace.withEnums.scope = findKey? c.name trace.started.scope :=
      foldlM_elsewhere _ _ _ ((foldlM_enums _ _ _).mpr trace.enums) c.name fun isEnum =>
        once.2.2 _ isEnum _ (List.mem_append_left _ (List.mem_map_of_mem isClass)) rfl
    have classes : findKey? c.name step.before.scope = findKey? c.name trace.withEnums.scope :=
      foldlM_elsewhere _ _ _ ((foldlM_classes _ _ _).mpr step.reached) c.name fun again => by
        obtain ⟨other, member, same⟩ := List.mem_map.mp (names_cls _ ▸ again)
        obtain ⟨j, within, found⟩ := List.mem_take_iff_getElem.mp member
        have before : j < step.index := by omega
        refine apart.not_later j step.index before other
          (by rw [← found]; exact List.getElem?_eq_getElem _) ?_
        rw [same]
        refine List.mem_map_of_mem (List.mem_iff_getElem?.mpr ⟨i - step.index, ?_⟩)
        rw [List.getElem?_drop, Nat.add_sub_cancel' (Nat.le_of_not_lt earlier), present]
    rw [classes, enums]

end

/-! ## Names of bases -/

/-- Whether the class at a place is one that makes a class a connection or an edge. -/
def Foundation.IsCapability (place : Nat) : Prop := 2 ≤ place ∧ place < Foundation.classes.length

/-- Whether no name leads to a class that makes a class a connection or an edge. -/
def Loading.HidesCapabilities (s : Loading) : Prop :=
  ∀ name place, s.binding? name = some (.cls place) → ¬Foundation.IsCapability place

theorem Loading.HidesCapabilities.bind {s : Loading} (hides : s.HidesCapabilities) (name : String)
    (binding : Binding) (other : ∀ place, binding = .cls place → ¬Foundation.IsCapability place) :
    (s.bind name binding).HidesCapabilities := by
  intro known place bound
  rw [binding?_bind] at bound
  split at bound
  · exact other place (Option.some.inj bound)
  · exact hides known place bound

theorem start_hidesCapabilities {world : World} (imports : List String) (s : Loading)
    (given : Loading.start imports world = .ok s) : s.HidesCapabilities := by
  intro name place bound
  by_cases page : name = "PageInfo"
  · subst page
    obtain ⟨bindings, -, made⟩ := (Outcome.bind_ok_iff _ _ _).mp given
    cases made
    rw [Loading.binding?, findKey?_setKeys] at bound
    change some (Binding.cls Foundation.pageInfo) = _ at bound
    cases bound
    rintro ⟨low, -⟩
    exact absurd low (by decide)
  · have none := ((start_agrees imports s given).bound name page place).mp bound
    cases none

theorem loadEnum_hidesCapabilities (s s' : Loading) (e : Source.EnumClass)
    (hides : s.HidesCapabilities) (given : loadEnum s e = .ok s') : s'.HidesCapabilities := by
  obtain ⟨members, -, given⟩ := (Outcome.bind_ok_iff _ _ _).mp given
  have kept : Loading.HidesCapabilities
      { s with enums := s.enums ++ [{ name := nameText e.name, members }] } := hides
  have named := kept.bind (nameText e.name) (.enum s.enums.length) (by rintro place ⟨⟩)
  split at given
  · obtain ⟨constants, -, given⟩ := (Outcome.bind_ok_iff _ _ _).mp given
    cases given
    exact named.bind _ _ (by rintro place ⟨⟩)
  · cases given
    exact named

/-- While classes are loaded, names lead to what a module may be derived from, and to nothing else of
the foundation. -/
theorem Trace.hidesCapabilities {m : Source.Module} {lib : Library} (trace : Trace m lib)
    (step : ClassStep (classSources m) trace.withEnums) : step.before.HidesCapabilities := by
  have enums : trace.withEnums.HidesCapabilities :=
    Outcome.foldlM_preserves Loading.HidesCapabilities loadEnum m.enums _ _
      (start_hidesCapabilities _ _ trace.start) trace.enums fun e _ s s' hides given =>
        loadEnum_hidesCapabilities s s' e hides given
  -- A new class is bound to a place behind the foundation.
  refine (Outcome.foldlM_preserves (fun s => Foundation.classes.length ≤ s.classes.length ∧
    s.HidesCapabilities) loadClass _ _ _ ⟨Nat.le_of_eq trace.length_withEnums.symm, enums⟩
    step.reached fun c _ s s' before given => ?_).2
  obtain ⟨places, -, loaded⟩ := (Outcome.bind_ok_iff _ _ _).mp given
  obtain ⟨above, declared, -, rfl⟩ := Statement.load_ok _ s s' loaded
  have kept : Loading.HidesCapabilities
      { s with classes := s.classes ++ [(c.statement places).made s above declared] } := before.2
  refine ⟨?_, kept.bind _ _ ?_⟩
  · rw [Loading.bind, List.length_append]
    omega
  · rintro place ⟨⟩ ⟨-, within⟩
    omega

/-- A base that is no capability is found at no capability. -/
theorem Trace.base_not_capability {m : Source.Module} {lib : Library} (trace : Trace m lib)
    (step : ClassStep (classSources m) trace.withEnums) (written : Source.Base) (place : Nat)
    (placed : basePlace step.before written = .ok place)
    (other : ∀ kind, written ≠ .capability kind) : ¬Foundation.IsCapability place := by
  cases written with
  | model =>
    cases placed
    rintro ⟨low, -⟩
    exact absurd low (by decide)
  | capability kind => exact absurd rfl (other kind)
  | contract name =>
    rw [basePlace] at placed
    split at placed
    · rename_i bound
      cases placed
      exact trace.hidesCapabilities step name _ bound
    · cases placed
    · cases placed

/-! ## Orders -/

theorem Statement.load_linearizes (d : Statement) (s s' : Loading) (given : d.load s = .ok s') :
    ∃ k, s'.classes = s.classes ++ [k] ∧ linearize s.classes.length
      (d.bases.map fun base => ((s.classes[base]?).map (·.order)).getD []) = some k.order := by
  unfold load at given
  split at given
  · cases given
  dsimp only at given
  split at given
  swap
  · cases given
  rename_i order merged
  obtain ⟨declared, -, made⟩ := (Outcome.bind_ok_iff _ _ _).mp given
  cases made
  exact ⟨_, rfl, merged⟩

/-- The order of a loaded class is that over the orders of its bases. -/
theorem ClassStep.linearizes {sources : List ClassSource} {s s' : Loading}
    (step : ClassStep sources s) (given : sources.foldlM loadClass s = .ok s')
    (placed : s'.classes[step.before.classes.length]? = some step.made) :
    linearize step.before.classes.length (step.places.map fun base =>
      ((step.before.classes[base]?).map (·.order)).getD []) = some step.made.order := by
  have rest := step.rest given
  obtain ⟨within, same⟩ := List.getElem?_eq_some_iff.mp step.present
  rw [List.drop_eq_getElem_cons within, List.foldlM_cons, same] at rest
  obtain ⟨t, loaded, later⟩ := (Outcome.bind_ok_iff _ _ _).mp rest
  obtain ⟨places, bases, loaded⟩ := (Outcome.bind_ok_iff _ _ _).mp loaded
  cases bases.symm.trans step.bases
  obtain ⟨k, classes, merged⟩ := Statement.load_linearizes _ _ t loaded
  rw [step.source.statement_bases] at merged
  have kept := class_kept later step.before.classes.length k (by
    rw [classes, List.getElem?_append_right (Nat.le_refl _), Nat.sub_self,
      List.getElem?_cons_zero])
  cases kept.symm.trans placed
  exact merged

/-- While a class is loaded, those of the foundation are there as they are at first. -/
theorem Trace.foundation_before {m : Source.Module} {lib : Library} (trace : Trace m lib)
    (step : ClassStep (classSources m) trace.withEnums) (place : Nat) (c : Class)
    (placed : Foundation.classes[place]? = some c) :
    step.before.classes[place]? = some c.draft := by
  refine class_kept step.reached place _ ?_
  rw [trace.withEnums_classes, List.getElem?_map, placed]
  rfl

/-- The order of a loaded class has no class twice. -/
theorem order_nodup {world : World} {m : Source.Module} {lib : Library}
    (loaded : load m world = .ok lib) (place : Nat) (c : Class)
    (found : lib.class? place = some c) : c.order.Nodup := by
  obtain ⟨trace⟩ := load_trace m lib loaded
  obtain ⟨k, isClass, finishes⟩ := trace.class_finished place c found
  obtain ⟨fields, rfl, -⟩ := finishClass_ok _ _ c finishes
  change k.order.Nodup
  -- No class stands before one that is in its order, so a new class is in no order of its bases.
  refine (classes_induct trace.classes
    (fun place k => k.order.Nodup ∧ ∀ q ∈ k.order, q ≤ place) ?_ ?_ place k isClass).1
  · intro q k initial
    have all : ∀ c ∈ Foundation.classes.map ClassOf.draft, c.order.Nodup := by decide
    rw [trace.withEnums_classes] at initial
    exact ⟨all k (List.mem_of_getElem? initial), (foundation_hasNames q k initial).bounded⟩
  · intro step placed earlier
    have behind : ∀ q ∈ step.above, q < step.before.classes.length := by
      intro q isAbove
      obtain ⟨base, -, b, isOld, inOrder⟩ := (step.makes.mem_above q).mp isAbove
      exact Nat.lt_of_le_of_lt ((earlier base b isOld).2 q inOrder)
        (List.getElem?_eq_some_iff.mp isOld).choose
    obtain ⟨_, order, distinct, -⟩ := linearize_some _ _ _ (step.linearizes trace.classes placed)
    obtain rfl := (List.cons.inj order).2
    refine ⟨List.nodup_cons.mpr ⟨fun again => ?_, distinct⟩, fun q inOrder => ?_⟩
    · exact Nat.lt_irrefl _ (behind _ again)
    · rcases List.mem_cons.mp inOrder with rfl | isAbove
      · exact Nat.le_refl _
      · exact Nat.le_of_lt (behind q isAbove)

section

variable {imports : ImportTable} {definitions : List Definition} {source : Source.Module}
  {lib : Library} (laysOut : Source.LaysOut imports definitions source) (trace : Trace source lib)

include laysOut

/-- A contract is derived from contracts and from no capability. -/
theorem contract_order (place : Nat) (k : ClassOf Draft)
    (found : trace.withClasses.classes[place]? = some k)
    (within : place < Foundation.classes.length +
      (Contract.ordered (definitions.filterMap Definition.contract?)).length)
    (other : ¬Foundation.IsCapability place) : ∀ q ∈ k.order, ¬Foundation.IsCapability q := by
  -- The induction is over the statements, of which those of contracts come first.
  refine classes_induct trace.classes (fun place k => place < Foundation.classes.length +
    (Contract.ordered (definitions.filterMap Definition.contract?)).length →
    ¬Foundation.IsCapability place → ∀ q ∈ k.order, ¬Foundation.IsCapability q) ?_ ?_ place k found
    within other
  · intro q k initial _ other p inOrder capability
    rw [trace.withEnums_classes] at initial
    have low := (List.getElem?_eq_some_iff.mp initial).choose
    rw [List.length_map] at low
    -- In front of the capabilities are the base of all models and the page information.
    have front : q < 2 := by
      by_contra behind
      exact other ⟨Nat.le_of_not_lt behind, low⟩
    have bound := (foundation_hasNames q k initial).bounded p inOrder
    exact absurd capability.1 (by omega)
  · intro step _ earlier within other p inOrder
    have length := step.length
    rw [trace.length_withEnums] at length
    rcases List.mem_cons.mp inOrder with rfl | isAbove
    · exact other
    obtain ⟨base, isBase, k, isClass, inOrder⟩ := (step.makes.mem_above p).mp isAbove
    obtain ⟨written, isWritten, placed⟩ := Outcome.mapM_from _ _ _ step.bases base
      (step.source.statement_bases step.places ▸ isBase)
    have low := (List.getElem?_eq_some_iff.mp isClass).choose
    refine earlier base k isClass (by omega) ?_ p inOrder
    refine trace.base_not_capability step written base placed fun kind capability => ?_
    subst capability
    obtain ⟨e, listed, isClass⟩ := laysOut.definition_of step.index step.source step.present
    cases e with
    | enum _ => cases isClass
    | contract d => exact capability_not_mem_contractBases _ d kind (isClass.ofContract ▸ isWritten)
    | object o =>
      have behind := Source.object_listed definitions step.index o listed
      omega

end

/-! ## Connections -/

theorem capability_mem_objectBases (ancestors : Contract.Ancestors) (o : ObjectDef)
    (kind : CapabilityKind) :
    .capability kind ∈ Source.objectBases ancestors o ↔ ∃ c ∈ o.capabilities, c.kind = kind := by
  simp [Source.objectBases]

/-- Whether a class is that of a connection of a kind, which may be an edge as well. -/
structure IsConnection (o : ObjectDef) (kind : CapabilityKind) : Prop where
  given : ∃ c ∈ o.capabilities, c.kind = kind
  other : kind ≠ .edge
  alone : ∀ c ∈ o.capabilities, c.kind = kind ∨ c.kind = .edge

section

variable {world : World} {imports : ImportTable} {definitions : List Definition}
  {source : Source.Module} {lib : Library} (laysOut : Source.LaysOut imports definitions source)
  (loaded : load source world = .ok lib) (apart : NamesApart source)

include laysOut loaded apart

/-- The order of a connection keeps that of its capability and has nothing else of a connection. -/
theorem connection_order (i : Nat) (o : ObjectDef)
    (listed : (Source.classDefinitions definitions)[i]? = some (.object o))
    (defined : ∀ name ∈ o.contracts, ∃ c : ContractDef,
      .contract c ∈ Source.classDefinitions definitions ∧ c.name = name)
    (kind : CapabilityKind) (connection : IsConnection o kind) (above : Class)
    (placed : Foundation.classes[Foundation.capability kind]? = some above) :
    ∃ k, lib.class? (Foundation.classes.length + i) = some k ∧ above.order.Sublist k.order ∧
      ∀ q ∈ k.order, Foundation.IsCapability q →
        q ∈ above.order ∨ q = Foundation.capability .edge := by
  obtain ⟨trace⟩ := load_trace source lib loaded
  obtain ⟨c, present, isClass⟩ := laysOut.class_of i _ listed
  obtain ⟨step, rfl, rfl, inTable, -⟩ := exists_step trace.classes i c present
  have length := step.length
  rw [trace.length_withEnums] at inTable length
  obtain ⟨k, found, finishes⟩ := trace.finished_class _ _ inTable
  obtain ⟨fields, rfl, -⟩ := finishClass_ok _ _ k finishes
  refine ⟨_, found, ?_, ?_⟩
  · obtain ⟨_, order, -, keeps, -⟩ :=
      linearize_some _ _ _ (step.linearizes trace.classes (length ▸ inTable))
    obtain rfl := (List.cons.inj order).2
    refine .cons _ (keeps _ ?_)
    obtain ⟨c, isCapability, rfl⟩ := connection.given
    have isBase : Source.Base.capability c.kind ∈ step.source.bases := by
      rw [isClass.ofObject.2]
      exact (capability_mem_objectBases _ o c.kind).mpr ⟨c, isCapability, rfl⟩
    obtain ⟨place, isPlace, same⟩ := Outcome.mapM_mem _ _ _ step.bases _ isBase
    cases same
    refine List.mem_map.mpr ⟨_, isPlace, ?_⟩
    rw [trace.foundation_before step _ above placed]
    rfl
  · intro q inOrder isCapability
    rcases List.mem_cons.mp inOrder with rfl | isAbove
    · exact absurd isCapability.2 (by omega)
    obtain ⟨base, isBase, b, isOld, inOrder⟩ := (step.makes.mem_above q).mp isAbove
    rw [step.source.statement_bases] at isBase
    obtain ⟨written, isWritten, placed'⟩ := Outcome.mapM_from _ _ _ step.bases base isBase
    -- Bases are contracts, which have nothing of a connection above them, or capabilities.
    by_cases other : ∀ kind, written ≠ .capability kind
    · have within := bases_lt_objects laysOut trace apart step o isClass
        (Source.object_listed definitions step.index o listed) defined base isBase
      have none := trace.base_not_capability step written base placed' other
      have isClass := class_kept (step.rest trace.classes) base b isOld
      exact absurd isCapability (contract_order laysOut trace base b isClass within none q inOrder)
    · push Not at other
      obtain ⟨found, rfl⟩ := other
      cases placed'
      rw [isClass.ofObject.2, capability_mem_objectBases] at isWritten
      obtain ⟨c, isGiven, rfl⟩ := isWritten
      rcases connection.alone c isGiven with same | edge
      · rw [same, trace.foundation_before step _ above placed] at isOld
        cases isOld
        exact .inl inOrder
      · rw [edge, trace.foundation_before step _ _ rfl] at isOld
        cases isOld
        exact .inr (List.mem_singleton.mp inOrder)

/-- A connection finds its source of nodes, and what lists them, where its capability does. -/
theorem connection_method? (i : Nat) (o : ObjectDef)
    (listed : (Source.classDefinitions definitions)[i]? = some (.object o))
    (defined : ∀ name ∈ o.contracts, ∃ c : ContractDef,
      .contract c ∈ Source.classDefinitions definitions ∧ c.name = name)
    (kind : CapabilityKind) (connection : IsConnection o kind) (name : String)
    (isName : name = "node_source" ∨ name = "get_nodes") :
    lib.method? (Foundation.classes.length + i) name =
      Foundation.library.method? (Foundation.capability kind) name := by
  obtain ⟨above, placed⟩ : ∃ above, Foundation.classes[Foundation.capability kind]? = some above := by
    cases kind <;> exact ⟨_, rfl⟩
  obtain ⟨k, found, kept, others⟩ :=
    connection_order laysOut loaded apart i o listed defined kind connection above placed
  have distinct := order_nodup loaded _ k found
  have plain : ∀ target, name ≠ "as_" ++ target := by
    rintro target rfl
    rcases isName with same | same <;>
    · have letters := congrArg String.toList same
      rw [String.toList_append] at letters
      cases letters
  have own : (lib.ownMethod? · name) = (Foundation.library.ownMethod? · name) :=
    funext fun q => ownMethod?_eq laysOut loaded q name plain
  rw [lib.method?_eq _ k found, Foundation.library.method?_eq _ above placed, own]
  refine findSome?_of_sublist _ _ _ kept distinct fun q inOrder has => ?_
  -- Neither the base of all models nor an edge has such a method.
  have few : Foundation.IsCapability q ∧ q ≠ Foundation.capability .edge := by
    match q with
    | 0 | 1 | 6 => rcases isName with rfl | rfl <;> cases has
    | 2 | 3 | 4 | 5 => exact ⟨by unfold Foundation.IsCapability; decide, by decide⟩
    | _ + 7 => cases has
  exact (others q inOrder few.1).resolve_right few.2

end

/-! ## Chains of bases -/

section

variable {world : World} {imports : ImportTable} {definitions : List Definition}
  {source : Source.Module} {lib : Library} (laysOut : Source.LaysOut imports definitions source)
  (loaded : load source world = .ok lib) (distinct : (source.exported.map nameText).Nodup)

include laysOut distinct

/-- A base that is a contract is found at the class of the contract, which stands before the class
that is derived from it. -/
theorem base_of_contract (trace : Trace source lib)
    (step : ClassStep (classSources source) trace.withEnums) (j : Nat) (d : ContractDef)
    (target : (Source.classDefinitions definitions)[j]? = some (.contract d))
    (named : d.name ≠ "PageInfo") (isBase : .contract d.name ∈ step.source.bases) :
    j < step.index ∧ Foundation.classes.length + j ∈ step.places := by
  obtain ⟨c, present, isClass⟩ := laysOut.class_of j _ target
  have sameName : c.name = d.name := isClass.spec.1
  obtain ⟨place, isPlace, placed⟩ := Outcome.mapM_mem _ _ _ step.bases _ isBase
  rw [basePlace] at placed
  split at placed
  · rename_i bound
    cases placed
    rcases trace.class_before distinct step j c present with ⟨earlier, here⟩ | ⟨-, still⟩
    · rw [sameName] at here
      rw [Loading.binding?, here] at bound
      cases bound
      exact ⟨earlier, isPlace⟩
    · -- At the start no name but that of the page information leads to a class.
      rw [sameName] at still
      rw [Loading.binding?, still] at bound
      have none := ((start_agrees _ _ trace.start).bound d.name named _).mp bound
      cases none
  · cases placed
  · cases placed

omit distinct in
/-- A base from which a chain of bases leads to a contract is that of a contract as well. -/
theorem contract_of_chain (j : Nat) (above : ContractDef)
    (target : (Source.classDefinitions definitions)[j]? = some (.contract above))
    (base : Source.Base)
    (chain : Relation.ReflTransGen source.Derives base (.contract above.name)) :
    ∃ (k : Nat) (e : ContractDef),
      (Source.classDefinitions definitions)[k]? = some (.contract e) ∧ base = .contract e.name := by
  rcases chain.cases_head with rfl | ⟨_, ⟨c, isClass, rfl, -⟩, -⟩
  · exact ⟨j, above, target, rfl⟩
  · obtain ⟨k, present⟩ := List.mem_iff_getElem?.mp
      (List.mem_append_left _ (List.mem_map_of_mem isClass) : .contract c ∈ classSources source)
    obtain ⟨e, isDefined, made⟩ := laysOut.definition_of k _ present
    cases made with
    | contract e c made =>
      exact ⟨k, e, isDefined, congrArg Source.Base.contract
        (Source.IsClassOf.contract e c made).spec.1⟩

include loaded

/-- The class of a contract has in its order what the class of a contract has that is its base. -/
theorem base_order_subset (i : Nat) (d : ContractDef)
    (listed : (Source.classDefinitions definitions)[i]? = some (.contract d)) (k : Nat)
    (e : ContractDef) (isDefined : (Source.classDefinitions definitions)[k]? = some (.contract e))
    (named : e.name ≠ "PageInfo")
    (derives : source.Derives (.contract d.name) (.contract e.name)) (b : Class)
    (found : lib.class? (Foundation.classes.length + k) = some b) :
    ∃ c, lib.class? (Foundation.classes.length + i) = some c ∧ b.order ⊆ c.order := by
  obtain ⟨trace⟩ := load_trace source lib loaded
  have apart := namesApart source distinct
  obtain ⟨c, isClass, same, isBase⟩ := derives
  obtain ⟨written, present, made⟩ := laysOut.class_of i _ listed
  obtain ⟨step, rfl, rfl, made', placed, finishes⟩ := trace.exists_class i written present
  have isSource : step.source = .contract c :=
    List.inj_on_of_nodup_map apart.classes (List.mem_of_getElem? present)
      (List.mem_append_left _ (List.mem_map_of_mem isClass))
      (made.spec.1.trans (Source.Base.contract.inj same))
  obtain ⟨earlier, isPlace⟩ :=
    base_of_contract laysOut distinct trace step k e isDefined named (isSource ▸ isBase)
  obtain ⟨fields, rfl, -⟩ := finishClass_ok _ _ made' finishes
  have length := step.length
  rw [trace.length_withEnums] at length
  have isOld := List.getElem?_eq_getElem
    (by omega : Foundation.classes.length + k < step.before.classes.length)
  obtain ⟨b', found', finishes'⟩ :=
    trace.finished_class _ _ (class_kept (step.rest trace.classes) _ _ isOld)
  obtain ⟨fields', rfl, -⟩ := finishClass_ok _ _ b' finishes'
  cases found.symm.trans found'
  refine ⟨_, placed, fun p inOrder => List.mem_cons_of_mem _ ?_⟩
  refine (step.makes.mem_above p).mpr ⟨_, ?_, _, isOld, inOrder⟩
  rw [step.source.statement_bases]
  exact isPlace

/-- A contract from which a chain of bases leads to another has the class of the other in its
order. -/
theorem derived_order
    (named : ∀ d : ContractDef, .contract d ∈ Source.classDefinitions definitions →
      d.name ≠ "PageInfo")
    (j : Nat) (above : ContractDef)
    (target : (Source.classDefinitions definitions)[j]? = some (.contract above)) (i : Nat)
    (d : ContractDef) (listed : (Source.classDefinitions definitions)[i]? = some (.contract d))
    (chain : Relation.ReflTransGen source.Derives (.contract d.name) (.contract above.name)) :
    ∃ c, lib.class? (Foundation.classes.length + i) = some c ∧
      Foundation.classes.length + j ∈ c.order := by
  generalize start : Source.Base.contract d.name = base at chain
  induction chain using Relation.ReflTransGen.head_induction_on generalizing i d with
  | refl =>
    obtain ⟨trace⟩ := load_trace source lib loaded
    have apart := namesApart source distinct
    obtain ⟨-, -, -, bound, c, found, -⟩ := exists_class_of laysOut trace apart i _ listed
    obtain ⟨-, -, -, bound', -⟩ := exists_class_of laysOut trace apart j _ target
    have same : d.name = above.name := Source.Base.contract.inj start
    change lib.binding? d.name = _ at bound
    rw [same] at bound
    have samePlace := Binding.cls.inj (Option.some.inj (bound.symm.trans bound'))
    exact ⟨c, found, samePlace ▸ (library_hasNames laysOut loaded _ c found).itself⟩
  | head derives chain ih =>
    obtain ⟨k, e, isDefined, rfl⟩ := contract_of_chain laysOut j above target _ chain
    obtain ⟨b, found, inOrder⟩ := ih k e isDefined rfl
    obtain ⟨c, found', kept⟩ := base_order_subset laysOut loaded distinct i d listed k e isDefined
      (named e (List.mem_of_getElem? isDefined)) (start ▸ derives) b found
    exact ⟨c, found', kept inOrder⟩

end

end GraphQLModels.Model
