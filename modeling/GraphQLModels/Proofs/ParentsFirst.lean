import GraphQLModels.Proofs.ClassOrder

/-!
# Bases that are bound before they are used

Contracts are visited one after the other, the parents of each before the contract itself, and what
has been entered is passed over. Such a visit comes to an end whatever the parents are, and in one
way only. It leaves a list as it is in which parents come first already. The class statements of a
module follow this order, so they find all their bases bound.
-/

namespace GraphQLModels

namespace Contract

/-! ## Visits -/

/-- Visiting contracts one after the other, with no bound on chains of parents. A contract whose
name has been entered is passed over; another is entered, and placed when its parents have been
visited. -/
inductive Visits (contracts : List ContractDef) : List ContractDef → Placed → Placed → Prop
  | done (state : Placed) : Visits contracts [] state state
  | pass (c : ContractDef) (rest : List ContractDef) (state last : Placed)
      (old : c.name ∈ state.entered) (others : Visits contracts rest state last) :
      Visits contracts (c :: rest) state last
  | place (c : ContractDef) (rest : List ContractDef) (state between last : Placed)
      (fresh : c.name ∉ state.entered)
      (above : Visits contracts (c.parents.filterMap (lookup? contracts))
        { state with entered := c.name :: state.entered } between)
      (others : Visits contracts rest { between with ordered := between.ordered ++ [c] } last) :
      Visits contracts (c :: rest) state last

section

variable {contracts : List ContractDef}

/-- A visit ends in one way only. -/
theorem Visits.unique {rest : List ContractDef} {state last other : Placed}
    (one : Visits contracts rest state last) (two : Visits contracts rest state other) :
    other = last := by
  induction one generalizing other with
  | done state =>
    cases two
    rfl
  | pass c rest state last old _ ih =>
    cases two with
    | pass _ _ _ _ _ others => exact ih others
    | place _ _ _ _ _ fresh _ _ => exact absurd old fresh
  | place c rest state between last fresh _ _ ihAbove ihOthers =>
    cases two with
    | pass _ _ _ _ old _ => exact absurd old fresh
    | place _ _ _ _ _ _ above others =>
      cases ihAbove above
      exact ihOthers others

/-- Contracts that have all been entered are passed over. -/
theorem Visits.pass_all (rest : List ContractDef) (state : Placed)
    (old : ∀ c ∈ rest, c.name ∈ state.entered) : Visits contracts rest state state := by
  induction rest with
  | nil => exact .done state
  | cons c rest ih =>
    rw [List.forall_mem_cons] at old
    exact .pass c rest state state old.1 (ih old.2)

theorem Grows.later {first second : Placed} (grows : Grows contracts first second) :
    Later first second := by
  refine ⟨grows.entered, ?_⟩
  obtain ⟨added, placed, -, -⟩ := grows.added
  rw [placed]
  intro name member
  simpa [names] using Or.inl (List.mem_map.mp member)

/-- Placing with enough fuel is a visit. -/
theorem foldl_place_visits (fuel : Nat) (rest : List ContractDef) (state : Placed)
    (known : ∀ c ∈ rest, c ∈ contracts) (enough : unentered contracts state < fuel) :
    Visits contracts rest state (rest.foldl (place contracts fuel) state) := by
  -- The fuel is used up by the parents only, of which each is entered before the next are visited.
  induction fuel generalizing rest state with
  | zero => exact absurd enough (Nat.not_lt_zero _)
  | succ fuel ihFuel =>
    induction rest generalizing state with
    | nil => exact .done state
    | cons c rest ih =>
      rw [List.forall_mem_cons] at known
      rw [List.foldl_cons, place_succ]
      by_cases old : c.name ∈ state.entered
      · rw [if_pos old]
        exact .pass c rest state _ old (ih state known.2 enough)
      · rw [if_neg old]
        have fewer := unentered_lt contracts state c known.1 old
        have above := ihFuel (c.parents.filterMap (lookup? contracts))
          { state with entered := c.name :: state.entered } (by
            intro parent isParent
            obtain ⟨name, -, found⟩ := List.mem_filterMap.mp isParent
            exact (lookup?_some contracts name parent found).1) (by omega)
        refine .place c rest state _ _ old above (ih _ known.2 ?_)
        -- What has been entered stays entered while the parents are placed.
        have later := (place_grows contracts (fuel + 1) state c known.1).1.later
        rw [place_succ, if_neg old] at later
        exact Nat.lt_of_le_of_lt (unentered_le contracts _ _ later) enough

/-- The visit of all contracts ends in the order of the contracts. -/
theorem visits_ordered (contracts : List ContractDef) :
    ∃ last, Visits contracts contracts {} last ∧ last.ordered = ordered contracts := by
  have enough : unentered contracts {} < contracts.length + 1 :=
    Nat.lt_succ_of_le List.countP_le_length
  exact ⟨_, foldl_place_visits _ contracts {} (fun _ member => member) enough, rfl⟩

/-! ## Lists that are in order -/

/-- Where parents come first, a visit places one contract after the other. -/
theorem visits_inOrder (before after : List ContractDef) (same : contracts = before ++ after)
    (distinct : (names contracts).Nodup) (inOrder : ParentsFirst contracts contracts) :
    Visits contracts after ⟨(names before).reverse, before⟩
      ⟨(names contracts).reverse, contracts⟩ := by
  induction after generalizing before with
  | nil =>
    rw [same, List.append_nil]
    exact .done _
  | cons c rest ih =>
    have fresh : c.name ∉ names before := by
      rw [same, names, List.map_append, List.map_cons] at distinct
      intro old
      exact (List.nodup_append.mp distinct).2.2 _ old _ List.mem_cons_self rfl
    -- The parents have all been entered, so nothing is placed between them and the contract.
    have above : ∀ parent ∈ c.parents.filterMap (lookup? contracts),
        parent.name ∈ c.name :: (names before).reverse := by
      intro parent isParent
      obtain ⟨name, listed, found⟩ := List.mem_filterMap.mp isParent
      obtain ⟨isContract, rfl⟩ := lookup?_some contracts name parent found
      have early := inOrder before c rest same parent.name listed (List.mem_map_of_mem isContract)
      exact List.mem_cons_of_mem _ (List.mem_reverse.mpr early)
    have later := ih (before ++ [c]) (by rw [same, List.append_assoc, List.singleton_append])
    rw [names_append, List.reverse_append, List.reverse_singleton, List.singleton_append] at later
    exact .place c rest _ _ _ (by simpa using fresh) (.pass_all _ _ above) later

end

/-- A list in which parents come first is left as it is. -/
theorem ordered_eq_self (contracts : List ContractDef) (distinct : (names contracts).Nodup)
    (inOrder : ParentsFirst contracts contracts) : ordered contracts = contracts := by
  obtain ⟨last, visits, same⟩ := visits_ordered contracts
  have kept : Visits contracts contracts {} ⟨(names contracts).reverse, contracts⟩ :=
    visits_inOrder [] contracts rfl distinct inOrder
  rw [← same, kept.unique visits]

/-! ## Orders of contracts -/

/-- How a list of contracts is put in order: a visit of them all has one end; none is lost or
repeated; parents come first if they form no cycle; and a list that is in order is left as it is. -/
structure IsOrderOf (contracts order : List ContractDef) : Prop where
  ends : ∃ last, Visits contracts contracts {} last ∧ last.ordered = order ∧
    ∀ other, Visits contracts contracts {} other → other = last
  complete : order.Perm contracts
  parentsFirst : Acyclic contracts → ParentsFirst contracts order
  kept : ParentsFirst contracts contracts → order = contracts

theorem ordered_isOrderOf (contracts : List ContractDef) (distinct : (names contracts).Nodup) :
    IsOrderOf contracts (ordered contracts) where
  ends := by
    obtain ⟨last, visits, same⟩ := visits_ordered contracts
    exact ⟨last, visits, same, fun other => visits.unique⟩
  complete := ordered_perm contracts distinct
  parentsFirst acyclic := (ordered_spec contracts acyclic).2.2.2
  kept := ordered_eq_self contracts distinct

end Contract

/-! ## Names of bases -/

/-- Whether the contracts of a module form no cycle, and whatever a contract or a class derives from
is one of them. -/
structure Module.IsHierarchy (m : Module) : Prop where
  acyclic : Contract.Acyclic (contractsOfModule m)
  parents : ∀ c, .contract c ∈ m.definitions → ∀ parent ∈ c.parents,
    parent ∈ Contract.names (contractsOfModule m)
  contracts : ∀ d, .object d ∈ m.definitions → ∀ contract ∈ d.contracts,
    contract ∈ Contract.names (contractsOfModule m)

theorem meetingModule_isHierarchy : meetingModule.IsHierarchy where
  acyclic := contracts_acyclic meetingOptions meetingSchema meetingModule
    meetingSchema_hasHierarchy.statesInterfaces meetingSchema_hasHierarchy.acyclic
    meetingModule_emitted
  parents := by
    have known : ∀ c ∈ contractsOfModule meetingModule, ∀ parent ∈ c.parents,
        parent ∈ Contract.names (contractsOfModule meetingModule) := by
      decide
    intro c isContract
    exact known c ((mem_contractsOfModule meetingModule c).mpr isContract)
  contracts := by
    have known : ∀ d ∈ meetingModule.objects, ∀ contract ∈ d.contracts,
        contract ∈ Contract.names (contractsOfModule meetingModule) := by
      decide
    intro d isObject
    exact known d ((mem_objects meetingModule d).mpr isObject)

namespace Source

/-- Whether a base is written as a member of the imported runtime, or under the name of one of some
class statements. -/
def Base.IsBoundAfter (before : List Model.Header) (base : Base) : Prop :=
  (∃ member ∈ Model.Foundation.exported, base.text = "_runtime." ++ member) ∨
    ∃ h ∈ before, base.text = h.name

theorem Base.isBoundAfter_runtime (before : List Model.Header) (base : Base)
    (foreign : ∀ name, base ≠ .contract name) : base.IsBoundAfter before := by
  left
  cases base with
  | contract name => exact absurd rfl (foreign name)
  | capability kind => exact ⟨capabilityClass kind, by cases kind <;> decide, rfl⟩
  | model => exact ⟨"GraphQLObject", by decide, rfl⟩

/-- Whether every class statement comes after those of its bases. -/
def Module.BindsBases (source : Module) : Prop :=
  ∀ before h after, Model.headers source = before ++ h :: after →
    ∀ base ∈ h.bases, base.IsBoundAfter before

end Source

section

variable {m : Module} (hierarchy : m.IsHierarchy)

include hierarchy

/-- The parents of a contract that is placed stand before it. -/
theorem contractHeader_bound (before after : List ContractDef) (c : ContractDef)
    (split : Contract.ordered (contractsOfModule m) = before ++ c :: after) (base : Source.Base)
    (derives : base ∈ (contractHeader m c).bases) :
    base.IsBoundAfter (before.map (contractHeader m)) := by
  obtain ⟨known, -, -, parentsFirst⟩ := Contract.ordered_spec _ hierarchy.acyclic
  cases base with
  | contract name =>
    right
    have isParent := mem_contractBases _ c name derives
    have isContract := known c (by simp [split])
    have early := parentsFirst before c after split name isParent
      (hierarchy.parents c ((mem_contractsOfModule m c).mp isContract) name isParent)
    obtain ⟨parent, isEarly, rfl⟩ := List.mem_map.mp early
    exact ⟨contractHeader m parent, List.mem_map_of_mem isEarly, rfl⟩
  | capability kind => exact Source.Base.isBoundAfter_runtime _ _ nofun
  | model => exact Source.Base.isBoundAfter_runtime _ _ nofun

/-- All contracts stand before the first class of an object. -/
theorem objectHeader_bound (rest : List Model.Header) (d : ObjectDef) (isObject : d ∈ m.objects)
    (base : Source.Base) (derives : base ∈ (objectHeader m d).bases) :
    base.IsBoundAfter
      ((Contract.ordered (contractsOfModule m)).map (contractHeader m) ++ rest) := by
  obtain ⟨-, -, placed, -⟩ := Contract.ordered_spec _ hierarchy.acyclic
  cases base with
  | contract name =>
    right
    have listed := mem_objectBases _ d name derives
    have early := (placed name).mpr
      (hierarchy.contracts d ((mem_objects m d).mp isObject) name listed)
    obtain ⟨c, isPlaced, rfl⟩ := List.mem_map.mp early
    exact ⟨contractHeader m c, List.mem_append_left _ (List.mem_map_of_mem isPlaced), rfl⟩
  | capability kind => exact Source.Base.isBoundAfter_runtime _ _ nofun
  | model => exact Source.Base.isBoundAfter_runtime _ _ nofun

theorem bindsBases (title : String) (imports : ImportTable) (source : Source.Module)
    (laidOut : Source.layOut title imports m.definitions = .ok source) : source.BindsBases := by
  intro before h after split
  rw [headers_of_layOut m title imports source laidOut] at split
  -- A statement is one of the contracts, or it comes after all of them.
  rcases List.append_eq_append_iff.mp split with ⟨rest, rfl, objects⟩ | ⟨rest, contracts, isAfter⟩
  · have member : h ∈ m.objects.map (objectHeader m) := by simp [objects]
    obtain ⟨d, isObject, rfl⟩ := List.mem_map.mp member
    exact objectHeader_bound hierarchy rest d isObject
  · cases rest with
    | nil =>
      have member : h ∈ m.objects.map (objectHeader m) := by
        rw [List.nil_append] at isAfter
        exact isAfter ▸ List.mem_cons_self
      obtain ⟨d, isObject, rfl⟩ := List.mem_map.mp member
      rw [List.append_nil] at contracts
      have bound := objectHeader_bound hierarchy [] d isObject
      rwa [List.append_nil, contracts] at bound
    | cons first rest =>
      obtain ⟨rfl, -⟩ := List.cons.inj isAfter
      obtain ⟨early, late, ordered, rfl, others⟩ := List.map_eq_append_iff.mp contracts
      obtain ⟨c, later, rfl, rfl, -⟩ := List.map_eq_cons_iff.mp others
      exact contractHeader_bound hierarchy early later c ordered

end

/-- **Parents before children.** Putting contracts in order ends for any parents, and gives each
contract once. Without a cycle parents come first, and a list that is in order is left as it is. So
in the module that is laid out every class statement finds its bases bound. -/
theorem parents_before_children :
    (∀ contracts : List ContractDef, (Contract.names contracts).Nodup →
      Contract.IsOrderOf contracts (Contract.ordered contracts)) ∧
    ∀ (m : Module) (title : String) (imports : ImportTable) (source : Source.Module),
      Source.layOut title imports m.definitions = .ok source → m.IsHierarchy →
      source.BindsBases := by
  constructor
  · exact Contract.ordered_isOrderOf
  · intro m title imports source laidOut hierarchy
    exact bindsBases hierarchy title imports source laidOut

/-- The contracts of the meetings from the last to the first, and the module of the meetings. -/
theorem parents_before_children_meeting :
    Contract.IsOrderOf (contractsOfModule meetingModule).reverse
        (Contract.ordered (contractsOfModule meetingModule).reverse) ∧
      meetingSource.BindsBases :=
  ⟨parents_before_children.1 _ (by decide),
    parents_before_children.2 meetingModule "meetings" _ meetingSource meetingSource_laidOut
      meetingModule_isHierarchy⟩

-- A cycle is cut where the visit comes back to a name that has been entered.
example : Contract.ordered [bareContract "Post" ["INode"], bareContract "Node" ["IPost"]] =
    [bareContract "Node" ["IPost"], bareContract "Post" ["INode"]] := by
  rfl

end GraphQLModels
