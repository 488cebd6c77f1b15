import GraphQLModels.Proofs.ParentsFirst

/-!
# Bases keep the declared subtyping

The ancestors that are collected from contracts in order are those that chains of parents lead to. A
class statement leaves out the bases that another base implies. As no contract is its own ancestor,
each of these is still implied by one that is kept, so chains of bases lead to the same contracts as
chains of declared parents, and in the end to the common base of all models.
-/

namespace GraphQLModels

namespace Contract

/-! ## Ancestors -/

section Ancestors

theorem Ancestors.of_add (ancestors : Ancestors) (c : ContractDef) (name : String) :
    (ancestors.add c).of name =
      if name = c.name then
        (c.parents.flatMap fun parent => parent :: ancestors.of parent).eraseDups
      else ancestors.of name := by
  simp only [Ancestors.of, Ancestors.add, findKey?_setKey, beq_iff_eq, eq_comm (a := c.name)]
  split <;> rfl

variable {placed : List ContractDef}

@[simp] theorem ancestors_append (placed : List ContractDef) (c : ContractDef) :
    ancestors (placed ++ [c]) = (ancestors placed).add c := by
  simp [ancestors]

theorem ancestors_unknown (name : String) (unknown : name ∉ names placed) :
    (ancestors placed).of name = [] := by
  induction placed using List.reverseRecOn with
  | nil => rfl
  | append_singleton placed last ih =>
    simp only [names_append, List.mem_append, List.mem_singleton, not_or] at unknown
    rw [ancestors_append, Ancestors.of_add, if_neg unknown.2, ih unknown.1]

/-- In a list that is in order the last contract is no parent. -/
theorem ParentsFirst.last_childless {last : ContractDef}
    (inOrder : ParentsFirst (placed ++ [last]) (placed ++ [last]))
    (fresh : last.name ∉ names placed) (c : ContractDef) (member : c ∈ placed ++ [last]) :
    last.name ∉ c.parents := by
  intro isParent
  obtain ⟨before, after, split⟩ := List.append_of_mem member
  have early := inOrder before c after split last.name isParent (by simp [names])
  -- What stands before some contract stands before the last one.
  rcases List.eq_nil_or_concat after with rfl | ⟨rest, other, rfl⟩
  · obtain ⟨rfl, -⟩ := List.append_inj' split rfl
    exact fresh early
  · have shifted : placed ++ [last] = (before ++ c :: rest) ++ [other] := by simpa using split
    obtain ⟨rfl, -⟩ := List.append_inj' shifted rfl
    apply fresh
    rw [names, List.map_append]
    exact List.mem_append_left _ early

theorem ParentsFirst.init {last : ContractDef}
    (inOrder : ParentsFirst (placed ++ [last]) (placed ++ [last])) :
    ParentsFirst placed placed := by
  intro before c after split parent isParent known
  apply inOrder before c (after ++ [last]) (by simp [split]) parent isParent
  rw [names_append]
  exact List.mem_append_left _ known

/-- The ancestors of a contract are its parents and their ancestors. -/
theorem mem_ancestors (distinct : (names placed).Nodup) (inOrder : ParentsFirst placed placed)
    (c : ContractDef) (member : c ∈ placed) (name : String) :
    name ∈ (ancestors placed).of c.name ↔
      ∃ parent ∈ c.parents, name = parent ∨ name ∈ (ancestors placed).of parent := by
  -- The induction is on the list from its end: a contract is added when its parents are known.
  induction placed using List.reverseRecOn with
  | nil => cases member
  | append_singleton placed last ih =>
    rw [names_append, ← List.concat_eq_append, List.nodup_concat] at distinct
    have kept : ∀ parent ∈ c.parents,
        ((ancestors placed).add last).of parent = (ancestors placed).of parent := by
      intro parent isParent
      have other : parent ≠ last.name := fun same =>
        inOrder.last_childless distinct.1 c member (same ▸ isParent)
      rw [Ancestors.of_add, if_neg other]
    have above : (∃ parent ∈ c.parents,
          name = parent ∨ name ∈ ((ancestors placed).add last).of parent) ↔
        ∃ parent ∈ c.parents, name = parent ∨ name ∈ (ancestors placed).of parent := by
      apply exists_congr
      intro parent
      apply and_congr_right
      intro isParent
      rw [kept parent isParent]
    rw [ancestors_append, above, Ancestors.of_add]
    rcases List.mem_append.mp member with early | isLast
    · have other : c.name ≠ last.name := fun same =>
        distinct.1 (same ▸ List.mem_map_of_mem early)
      rw [if_neg other, ih distinct.2 inOrder.init early]
    · cases List.mem_singleton.mp isLast
      simp

variable {contracts : List ContractDef} (distinct : (names contracts).Nodup)
  (acyclic : Acyclic contracts)

include distinct acyclic

/-- The collected ancestors are the contracts that chains of parents lead to. -/
theorem mem_ancestors_iff (start name : String) :
    name ∈ (ancestors (ordered contracts)).of start ↔
      Relation.TransGen (IsChild contracts) start name := by
  obtain ⟨-, once, same, parentsFirst⟩ := ordered_spec contracts acyclic
  have listed := fun c => (ordered_perm contracts distinct).mem_iff (a := c)
  have inOrder : ParentsFirst (ordered contracts) (ordered contracts) :=
    fun before c after split parent isParent known =>
      parentsFirst before c after split parent isParent ((same parent).mp known)
  have closed : ∀ c ∈ contracts, name ∈ (ancestors (ordered contracts)).of c.name ↔
      ∃ parent ∈ c.parents, name = parent ∨ name ∈ (ancestors (ordered contracts)).of parent :=
    fun c isContract => mem_ancestors once inOrder c ((listed c).mpr isContract) name
  constructor
  -- Ancestors are collected parents first, so the induction is on the hierarchy, not on the list.
  · intro isAncestor
    induction start using acyclic.wellFounded.induction with
    | _ start ih =>
      by_cases known : start ∈ names contracts
      · obtain ⟨c, isContract, rfl⟩ := List.mem_map.mp known
        obtain ⟨parent, isParent, isName⟩ := (closed c isContract).mp isAncestor
        have up : IsChild contracts c.name parent := ⟨c, isContract, rfl, isParent⟩
        rcases isName with rfl | above
        · exact .single up
        · exact .head up (ih parent up above)
      · rw [ancestors_unknown start (fun placed => known ((same start).mp placed))] at isAncestor
        cases isAncestor
  · intro path
    induction path using Relation.TransGen.head_induction_on with
    | single up =>
      obtain ⟨c, isContract, rfl, isParent⟩ := up
      exact (closed c isContract).mpr ⟨name, isParent, .inl rfl⟩
    | head up _ ih =>
      obtain ⟨c, isContract, rfl, isParent⟩ := up
      exact (closed c isContract).mpr ⟨_, isParent, .inr ih⟩

/-! ## Bases that are left -/

/-- A base is kept exactly if no chain of parents leads to it from a base. -/
theorem mem_reduceBases_iff (bases : List String) (name : String) :
    name ∈ reduceBases (ancestors (ordered contracts)) bases ↔
      name ∈ bases ∧ ∀ other ∈ bases, ¬Relation.TransGen (IsChild contracts) other name := by
  simp only [reduceBases, List.mem_filter, Bool.not_eq_true', List.any_eq_false, Bool.and_eq_true,
    bne_iff_ne, List.contains_iff_mem, mem_ancestors_iff distinct acyclic, not_and]
  constructor
  · rintro ⟨member, apart⟩
    refine ⟨member, fun other isBase path => ?_⟩
    by_cases same : other = name
    · exact acyclic name (same ▸ path)
    · exact apart other isBase same path
  · rintro ⟨member, apart⟩
    exact ⟨member, fun other isBase _ => apart other isBase⟩

/-- Every base is one that is kept or implied by one. -/
theorem exists_kept (bases : List String) (base : String) (member : base ∈ bases) :
    ∃ kept ∈ reduceBases (ancestors (ordered contracts)) bases,
      Relation.ReflTransGen (IsChild contracts) kept base := by
  -- Bases that imply each other go on downwards, and not for ever.
  let implies (one other : String) : Prop :=
    Relation.TransGen (IsChild contracts) one other ∧ other ∈ bases
  have ends : WellFounded implies := by
    apply wellFounded_of_acyclic implies bases
    · exact fun _ _ step => step.2
    · intro name cycle
      exact acyclic name (Relation.TransGen.closed (fun _ _ step => step.1) _ _ cycle)
  induction base using ends.induction with
  | _ base ih =>
    by_cases apart : ∀ other ∈ bases, ¬Relation.TransGen (IsChild contracts) other base
    · exact ⟨base, (mem_reduceBases_iff distinct acyclic bases base).mpr ⟨member, apart⟩, .refl⟩
    · push Not at apart
      obtain ⟨other, isBase, path⟩ := apart
      obtain ⟨kept, isKept, below⟩ := ih other ⟨path, member⟩ isBase
      exact ⟨kept, isKept, below.trans path.to_reflTransGen⟩

theorem reduceBases_eq_nil_iff (bases : List String) :
    reduceBases (ancestors (ordered contracts)) bases = [] ↔ bases = [] := by
  constructor
  · intro none
    apply List.eq_nil_iff_forall_not_mem.mpr
    intro base member
    obtain ⟨kept, isKept, -⟩ := exists_kept distinct acyclic bases base member
    rw [none] at isKept
    cases isKept
  · rintro rfl
    rfl

end Ancestors

end Contract

/-! ## Class statements -/

/-- Whether the class statement of a contract lists a base. -/
def Source.Module.Derives (source : Source.Module) (base above : Source.Base) : Prop :=
  ∃ c ∈ source.contracts, base = .contract c.name ∧ above ∈ c.bases

/-- How bases stand for the contracts that are declared of a class: chains of bases lead to the same
contracts as chains of parents; no base implies another; a contract is left if any is declared; and
the class is a model. -/
structure Module.KeepsSubtyping (m : Module) (source : Source.Module) (declared : List String)
    (bases : List Source.Base) : Prop where
  same : ∀ name, (∃ base ∈ bases, Relation.ReflTransGen source.Derives base (.contract name)) ↔
    ∃ contract ∈ declared,
      Relation.ReflTransGen (Contract.IsChild (contractsOfModule m)) contract name
  independent : ∀ one ∈ bases, ∀ other ∈ bases, ¬Relation.TransGen source.Derives one other
  kept : declared ≠ [] → ∃ contract ∈ declared, .contract contract ∈ bases
  isModel : ∃ base ∈ bases, Relation.ReflTransGen source.Derives base .model

/-- Which bases are listed for declared contracts. -/
structure Module.ListsBases (m : Module) (declared : List String) (bases : List Source.Base) :
    Prop where
  contract : ∀ name, .contract name ∈ bases ↔
    name ∈ Contract.reduceBases (ancestorsOfModule m) declared
  model : .model ∈ bases ↔ declared = []

theorem objectBases_listsBases (m : Module) (d : ObjectDef) :
    m.ListsBases d.contracts (Source.objectBases (ancestorsOfModule m) d) where
  contract name := by
    simp only [Source.objectBases, List.mem_append, List.mem_map]
    constructor
    · rintro ((⟨kept, isKept, same⟩ | ⟨_, _, same⟩) | same)
      · cases same
        exact isKept
      · cases same
      · split at same <;> simp at same
    · intro isKept
      exact .inl (.inl ⟨name, isKept, rfl⟩)
  model := by
    simp [Source.objectBases]

theorem capability_not_mem_contractBases (ancestors : Contract.Ancestors) (d : ContractDef)
    (kind : CapabilityKind) : .capability kind ∉ Source.contractBases ancestors d := by
  unfold Source.contractBases
  split <;> simp

section

variable {m : Module} {title : String} {imports : ImportTable} {source : Source.Module}
  (laidOut : Source.layOut title imports m.definitions = .ok source)

include laidOut

/-- The classes of objects have their names and bases. -/
theorem objectClass_iff (name : Option String) (bases : List Source.Base) :
    (∃ c ∈ source.objects, c.name = name ∧ c.bases = bases) ↔
      ∃ d ∈ m.objects, d.name = name ∧ Source.objectBases (ancestorsOfModule m) d = bases := by
  have heads := (Source.layOut_ok title imports m.definitions source laidOut).objectHeads
  have same := Iff.of_eq (congrArg ((name, bases) ∈ ·) heads)
  simp only [List.mem_map, Prod.mk.injEq] at same
  exact same

variable (distinct : (Contract.names (contractsOfModule m)).Nodup)

include distinct

theorem contractClass_iff (name : String) (bases : List Source.Base) :
    (∃ c ∈ source.contracts, c.name = name ∧ c.bases = bases) ↔
      ∃ d ∈ contractsOfModule m,
        d.name = name ∧ Source.contractBases (ancestorsOfModule m) d = bases := by
  have heads := (Source.layOut_ok title imports m.definitions source laidOut).contractHeads
  have same := Iff.of_eq (congrArg ((name, bases) ∈ ·) heads)
  have listed := fun d => (Contract.ordered_perm _ distinct).mem_iff (a := d)
  simp only [List.mem_map, Prod.mk.injEq] at same
  rw [same]
  exact exists_congr fun d => and_congr_left fun _ => listed d

/-- What a base that stands for a contract is derived from. -/
theorem derives_iff (child : String) (above : Source.Base) :
    source.Derives (.contract child) above ↔ ∃ d ∈ contractsOfModule m, d.name = child ∧
      above ∈ Source.contractBases (ancestorsOfModule m) d := by
  constructor
  · rintro ⟨c, isClass, same, derives⟩
    cases same
    obtain ⟨d, isContract, named, bases⟩ :=
      (contractClass_iff laidOut distinct c.name c.bases).mp ⟨c, isClass, rfl, rfl⟩
    exact ⟨d, isContract, named, bases ▸ derives⟩
  · rintro ⟨d, isContract, rfl, derives⟩
    obtain ⟨c, isClass, named, bases⟩ :=
      (contractClass_iff laidOut distinct d.name _).mpr ⟨d, isContract, rfl, rfl⟩
    exact ⟨c, isClass, by rw [named], bases ▸ derives⟩

/-- Chains of bases start at a contract, and those that end at one are chains of parents. -/
theorem path_of_derives (base above : Source.Base)
    (path : Relation.TransGen source.Derives base above) :
    ∃ child, base = .contract child ∧ ∀ parent, above = .contract parent →
      Relation.TransGen (Contract.IsChild (contractsOfModule m)) child parent := by
  have step : ∀ child parent, source.Derives (.contract child) (.contract parent) →
      Contract.IsChild (contractsOfModule m) child parent := by
    intro child parent derives
    obtain ⟨d, isContract, rfl, isBase⟩ := (derives_iff laidOut distinct child _).mp derives
    exact ⟨d, isContract, rfl, mem_contractBases _ d parent isBase⟩
  induction path with
  | single derives =>
    obtain ⟨c, -, rfl, -⟩ := id derives
    exact ⟨c.name, rfl, fun parent same => .single (step c.name parent (same ▸ derives))⟩
  | tail _ derives ih =>
    obtain ⟨child, rfl, path⟩ := ih
    obtain ⟨c, -, same, -⟩ := id derives
    refine ⟨child, rfl, fun parent isParent => (path c.name same).tail ?_⟩
    exact step c.name parent (same ▸ isParent ▸ derives)

variable (hierarchy : m.IsHierarchy)

include hierarchy

omit laidOut in
theorem contractBases_listsBases (d : ContractDef) :
    m.ListsBases d.parents (Source.contractBases (ancestorsOfModule m) d) := by
  have none := Contract.reduceBases_eq_nil_iff distinct hierarchy.acyclic d.parents
  unfold Source.contractBases
  split
  · rename_i reduced
    exact ⟨by simp [reduced], by simpa using none.mp reduced⟩
  · rename_i left
    exact ⟨by simp, by simpa using fun empty => left (none.mpr empty)⟩

/-- Chains of bases lead wherever chains of parents do. -/
theorem derives_of_path (child parent : String)
    (path : Relation.ReflTransGen (Contract.IsChild (contractsOfModule m)) child parent) :
    Relation.ReflTransGen source.Derives (.contract child) (.contract parent) := by
  -- The induction is from parents to children: a parent that is left out is above one that is kept.
  induction child using hierarchy.acyclic.wellFounded.induction with
  | _ child ih =>
    rcases path.cases_head with rfl | ⟨next, ⟨d, isContract, rfl, isParent⟩, above⟩
    · exact .refl
    · obtain ⟨kept, isKept, below⟩ :=
        Contract.exists_kept distinct hierarchy.acyclic d.parents next isParent
      have isBase := ((contractBases_listsBases distinct hierarchy d).contract kept).mpr isKept
      have up : Contract.IsChild (contractsOfModule m) d.name kept :=
        ⟨d, isContract, rfl, (Contract.reduceBases_sublist _ _).subset isKept⟩
      have derives : source.Derives (.contract d.name) (.contract kept) :=
        (derives_iff laidOut distinct d.name _).mpr ⟨d, isContract, rfl, isBase⟩
      exact .head derives (ih kept up (below.trans above))

/-- The class of every contract is a model. -/
theorem contract_isModel (name : String) (known : name ∈ Contract.names (contractsOfModule m)) :
    Relation.ReflTransGen source.Derives (.contract name) .model := by
  induction name using hierarchy.acyclic.wellFounded.induction with
  | _ name ih =>
    obtain ⟨d, isContract, rfl⟩ := List.mem_map.mp known
    have lists := contractBases_listsBases distinct hierarchy d
    have derives := fun above isBase =>
      (derives_iff laidOut distinct d.name above).mpr ⟨d, isContract, rfl, isBase⟩
    by_cases none : d.parents = []
    · exact .single (derives .model (lists.model.mpr none))
    · obtain ⟨parent, isParent⟩ := List.exists_mem_of_ne_nil _ none
      obtain ⟨kept, isKept, -⟩ :=
        Contract.exists_kept distinct hierarchy.acyclic d.parents parent isParent
      have listed := (Contract.reduceBases_sublist _ _).subset isKept
      refine .head (derives (.contract kept) ((lists.contract kept).mpr isKept)) ?_
      exact ih kept ⟨d, isContract, rfl, listed⟩
        (hierarchy.parents d ((mem_contractsOfModule m d).mp isContract) kept listed)

/-- Bases that are listed for contracts of the module keep the subtyping. -/
theorem keepsSubtyping_of_lists (declared : List String) (bases : List Source.Base)
    (lists : m.ListsBases declared bases)
    (known : ∀ contract ∈ declared, contract ∈ Contract.names (contractsOfModule m)) :
    m.KeepsSubtyping source declared bases := by
  have kept := Contract.mem_reduceBases_iff distinct hierarchy.acyclic declared
  have exists_kept := Contract.exists_kept distinct hierarchy.acyclic declared
  constructor
  case same =>
    intro name
    constructor
    · rintro ⟨base, isBase, path⟩
      rcases Relation.reflTransGen_iff_eq_or_transGen.mp path with rfl | path
      · exact ⟨name, ((kept name).mp ((lists.contract name).mp isBase)).1, .refl⟩
      · obtain ⟨child, rfl, above⟩ := path_of_derives laidOut distinct base _ path
        exact ⟨child, ((kept child).mp ((lists.contract child).mp isBase)).1,
          (above name rfl).to_reflTransGen⟩
    · rintro ⟨contract, isDeclared, path⟩
      obtain ⟨base, isKept, below⟩ := exists_kept contract isDeclared
      exact ⟨.contract base, (lists.contract base).mpr isKept,
        derives_of_path laidOut distinct hierarchy base name (below.trans path)⟩
  case independent =>
    intro one isOne other isOther path
    obtain ⟨child, rfl, above⟩ := path_of_derives laidOut distinct one other path
    have isChild := (kept child).mp ((lists.contract child).mp isOne)
    cases other with
    | contract parent =>
      exact ((kept parent).mp ((lists.contract parent).mp isOther)).2 child isChild.1
        (above parent rfl)
    | model =>
      -- The common base is listed only where no contract is.
      rw [lists.model.mp isOther] at isChild
      cases isChild.1
    | capability kind =>
      obtain ⟨_, -, derives⟩ := Relation.TransGen.tail'_iff.mp path
      obtain ⟨c, -, rfl, -⟩ := id derives
      obtain ⟨d, -, -, isBase⟩ := (derives_iff laidOut distinct c.name _).mp derives
      exact absurd isBase (capability_not_mem_contractBases _ d kind)
  case kept =>
    intro some
    obtain ⟨contract, isDeclared⟩ := List.exists_mem_of_ne_nil _ some
    obtain ⟨base, isKept, -⟩ := exists_kept contract isDeclared
    exact ⟨base, ((kept base).mp isKept).1, (lists.contract base).mpr isKept⟩
  case isModel =>
    by_cases none : declared = []
    · exact ⟨.model, lists.model.mpr none, .refl⟩
    · obtain ⟨contract, isDeclared⟩ := List.exists_mem_of_ne_nil _ none
      obtain ⟨base, isKept, -⟩ := exists_kept contract isDeclared
      exact ⟨.contract base, (lists.contract base).mpr isKept,
        contract_isModel laidOut distinct hierarchy base (known base ((kept base).mp isKept).1)⟩

end

/-- Definitions that have different names give contracts that do. -/
theorem names_contractsOfModule_nodup (m : Module)
    (distinct : (m.definitions.map Definition.name).Nodup) :
    (Contract.names (contractsOfModule m)).Nodup := by
  have apart : m.definitions.Pairwise fun one other => one.name ≠ other.name :=
    List.pairwise_map.mp distinct
  rw [Contract.names, contractsOfModule, List.Nodup, List.pairwise_map, List.pairwise_filterMap]
  refine apart.imp fun {one other} different c isContract d isContract' same => ?_
  cases one <;> cases isContract
  cases other <;> cases isContract'
  exact different (congrArg some same)

/-- **Bases keep the declared subtyping.** In a module whose definitions have different names, and
whose contracts form no cycle and declare each other only, every contract and every class has a
class statement of its name. Chains of its bases lead to the contracts that chains of declared
parents lead to, none of its bases is derived from another, and it is a model, by a contract if it
declares one. -/
theorem bases_keep_subtyping (m : Module) (title : String) (imports : ImportTable)
    (source : Source.Module) (laidOut : Source.layOut title imports m.definitions = .ok source)
    (distinct : (m.definitions.map Definition.name).Nodup) (hierarchy : m.IsHierarchy) :
    (∀ d, .contract d ∈ m.definitions → (∃ c ∈ source.contracts, c.name = d.name) ∧
      ∀ c ∈ source.contracts, c.name = d.name → m.KeepsSubtyping source d.parents c.bases) ∧
    ∀ d, .object d ∈ m.definitions → (∃ c ∈ source.objects, c.name = d.name) ∧
      ∀ c ∈ source.objects, c.name = d.name → m.KeepsSubtyping source d.contracts c.bases := by
  have apart := names_contractsOfModule_nodup m distinct
  constructor
  · intro d isContract
    constructor
    · obtain ⟨c, isClass, named, -⟩ := (contractClass_iff laidOut apart d.name _).mpr
        ⟨d, (mem_contractsOfModule m d).mpr isContract, rfl, rfl⟩
      exact ⟨c, isClass, named⟩
    · intro c isClass named
      obtain ⟨other, isOther, same, bases⟩ :=
        (contractClass_iff laidOut apart d.name c.bases).mp ⟨c, isClass, named, rfl⟩
      cases List.inj_on_of_nodup_map apart isOther ((mem_contractsOfModule m d).mpr isContract) same
      rw [← bases]
      exact keepsSubtyping_of_lists laidOut apart hierarchy d.parents _
        (contractBases_listsBases apart hierarchy d) (hierarchy.parents d isContract)
  · intro d isObject
    constructor
    · obtain ⟨c, isClass, named, -⟩ := (objectClass_iff laidOut d.name _).mpr
        ⟨d, (mem_objects m d).mpr isObject, rfl, rfl⟩
      exact ⟨c, isClass, named⟩
    · intro c isClass named
      obtain ⟨other, isOther, same, bases⟩ :=
        (objectClass_iff laidOut d.name c.bases).mp ⟨c, isClass, named, rfl⟩
      cases List.inj_on_of_nodup_map distinct ((mem_objects m other).mp isOther) isObject same
      rw [← bases]
      exact keepsSubtyping_of_lists laidOut apart hierarchy d.contracts _
        (objectBases_listsBases m d) (hierarchy.contracts d isObject)

/-- A meeting is derived from posts and events, which imply the two other contracts it declares. -/
theorem bases_keep_subtyping_meeting :
    meetingModule.KeepsSubtyping meetingSource ["IPost", "IEvent", "INode", "ITimed"]
      [.contract "IPost", .contract "IEvent"] := by
  obtain ⟨-, objects⟩ := bases_keep_subtyping meetingModule "meetings" _ meetingSource
    meetingSource_laidOut (by decide) meetingModule_isHierarchy
  obtain ⟨-, keeps⟩ := objects (meetingModule.objects.head (by decide))
    ((mem_objects _ _).mp (List.head_mem _))
  exact keeps (meetingSource.objects.head (by decide)) (List.head_mem _) rfl

end GraphQLModels
