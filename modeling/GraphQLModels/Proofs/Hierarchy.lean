import GraphQLModels.Contract.Hierarchy
import Mathlib.Data.List.Nodup
import Mathlib.Data.Set.Finite.Basic
import Mathlib.Logic.Relation

/-!
# Parents come first

Contracts whose parents form no cycle are put in an order in which each name stands once and behind
the names of its parents. What is placed last is a contract whose parents are all placed; the names
that are entered but not placed are its descendants.
-/

namespace GraphQLModels

/-- A relation without a cycle, all of whose steps end in one list, is well-founded. -/
theorem wellFounded_of_acyclic {α : Type} (r : α → α → Prop) (xs : List α)
    (within : ∀ a b, r a b → b ∈ xs) (acyclic : ∀ a, ¬Relation.TransGen r a a) :
    WellFounded r := by
  let listed := {a // a ∈ xs}
  have : Finite listed := xs.finite_toSet.to_subtype
  let before (a b : listed) : Prop := Relation.TransGen r a.1 b.1
  have : IsTrans listed before := ⟨fun _ _ _ => Relation.TransGen.trans⟩
  have : Std.Irrefl before := ⟨fun a => acyclic a.1⟩
  have ends : WellFounded before := Finite.wellFounded_of_trans_of_irrefl before
  have accessible : ∀ b : listed, Acc r b.1 := by
    intro b
    induction b using ends.induction with
    | _ b ih =>
      apply Acc.intro b.1
      intro a step
      by_cases known : a ∈ xs
      · exact ih ⟨a, known⟩ (.single step)
      · -- Nothing comes before what is not in the list.
        exact Acc.intro a fun c early => absurd (within c a early) known
  exact ⟨fun b => Acc.intro b fun a step => (accessible ⟨b, within a b step⟩).inv step⟩

namespace Contract

def names (contracts : List ContractDef) : List String := contracts.map (·.name)

@[simp] theorem names_append (contracts : List ContractDef) (c : ContractDef) :
    names (contracts ++ [c]) = names contracts ++ [c.name] := by
  simp [names]

/-- Whether a contract of the first name has a parent of the second. -/
def IsChild (contracts : List ContractDef) (child parent : String) : Prop :=
  ∃ c ∈ contracts, c.name = child ∧ parent ∈ c.parents

/-- Whether no contract is its own ancestor. -/
def Acyclic (contracts : List ContractDef) : Prop :=
  ∀ name, ¬Relation.TransGen (IsChild contracts) name name

/-- Where contracts form no cycle, a fact can be proved of a contract from the same fact of its
parents. -/
theorem Acyclic.wellFounded {contracts : List ContractDef} (acyclic : Acyclic contracts) :
    WellFounded fun parent child => IsChild contracts child parent := by
  apply wellFounded_of_acyclic _ (names contracts)
  · rintro parent child ⟨c, isContract, rfl, -⟩
    exact List.mem_map_of_mem isContract
  · exact fun name cycle => acyclic name (Relation.transGen_swap.mp cycle)

theorem lookup?_some (contracts : List ContractDef) (name : String) (c : ContractDef)
    (found : lookup? contracts name = some c) : c ∈ contracts ∧ c.name = name := by
  constructor
  · exact List.mem_reverse.mp (List.mem_of_find?_eq_some found)
  · simpa using List.find?_some found

theorem lookup?_isSome (contracts : List ContractDef) (name : String)
    (known : name ∈ names contracts) : ∃ c, lookup? contracts name = some c := by
  obtain ⟨c, member, rfl⟩ := List.mem_map.mp known
  refine Option.isSome_iff_exists.mp (List.find?_isSome.mpr ⟨c, ?_, ?_⟩)
  · exact List.mem_reverse.mpr member
  · simp

/-- Placing a contract with fuel left: its parents are placed with one less. -/
theorem place_succ {contracts : List ContractDef} (fuel : Nat) (state : Placed) (c : ContractDef) :
    place contracts (fuel + 1) state c =
      if c.name ∈ state.entered then state
      else
        let above := (c.parents.filterMap (lookup? contracts)).foldl (place contracts fuel)
          { state with entered := c.name :: state.entered }
        { above with ordered := above.ordered ++ [c] } := by
  simp only [place, List.contains_iff_mem]
  split
  · rfl
  · refine congrArg (fun above : Placed => { above with ordered := above.ordered ++ [c] }) ?_
    rw [List.foldl_filterMap]
    congr
    funext state parent
    cases lookup? contracts parent <;> rfl

/-- Whether parents among the contracts come before their children. -/
def ParentsFirst (contracts : List ContractDef) (placed : List ContractDef) : Prop :=
  ∀ before c after, placed = before ++ c :: after →
    ∀ parent ∈ c.parents, parent ∈ names contracts → parent ∈ names before

/-- A list stays in order when a contract comes at its end whose parents are in it. -/
theorem ParentsFirst.append {contracts placed : List ContractDef}
    (given : ParentsFirst contracts placed) (c : ContractDef)
    (above : ∀ parent ∈ c.parents, parent ∈ names contracts → parent ∈ names placed) :
    ParentsFirst contracts (placed ++ [c]) := by
  intro before d after same
  rcases List.eq_nil_or_concat after with rfl | ⟨rest, last, rfl⟩
  · obtain ⟨rfl, equal⟩ := List.append_inj' same rfl
    cases equal
    exact above
  · have shifted : placed ++ [c] = (before ++ d :: rest) ++ [last] := by simpa using same
    obtain ⟨equal, _⟩ := List.append_inj' shifted rfl
    exact given before d rest equal

/-- How far an ordering has come: what is placed is in order, and every entered name is placed or
among those that wait for their parents. -/
structure Placing (contracts : List ContractDef) (waiting : List String) (state : Placed) :
    Prop where
  entered : ∀ name, name ∈ state.entered ↔ name ∈ waiting ∨ name ∈ names state.ordered
  apart : ∀ name ∈ waiting, name ∉ names state.ordered
  known : ∀ c ∈ state.ordered, c ∈ contracts
  distinct : (names state.ordered).Nodup
  parentsFirst : ParentsFirst contracts state.ordered

/-- A contract that is entered waits for its parents. -/
theorem Placing.enter {contracts : List ContractDef} {waiting : List String} {state : Placed}
    (placing : Placing contracts waiting state) (c : ContractDef)
    (fresh : c.name ∉ state.entered) :
    Placing contracts (c.name :: waiting) { state with entered := c.name :: state.entered } where
  entered name := by
    simp only [List.mem_cons, placing.entered name, or_assoc]
  apart name member placed := by
    rcases List.mem_cons.mp member with rfl | member
    · exact fresh ((placing.entered c.name).mpr (.inr placed))
    · exact placing.apart name member placed
  known := placing.known
  distinct := placing.distinct
  parentsFirst := placing.parentsFirst

/-- A contract is placed when its parents are. -/
theorem Placing.append {contracts : List ContractDef} {waiting : List String} {state : Placed}
    (c : ContractDef) (placing : Placing contracts (c.name :: waiting) state)
    (isContract : c ∈ contracts) (other : c.name ∉ waiting)
    (above : ∀ parent ∈ c.parents, parent ∈ names contracts → parent ∈ names state.ordered) :
    Placing contracts waiting { state with ordered := state.ordered ++ [c] } where
  entered name := by
    rw [names_append, placing.entered name, List.mem_append, List.mem_singleton, List.mem_cons]
    tauto
  apart name member := by
    have apart := placing.apart name (List.mem_cons_of_mem c.name member)
    have different : name ≠ c.name := fun same => other (same ▸ member)
    simpa [different] using apart
  known d member := by
    rcases List.mem_append.mp member with member | member
    · exact placing.known d member
    · cases List.mem_singleton.mp member
      exact isContract
  distinct := by
    have apart := placing.apart c.name List.mem_cons_self
    rw [names_append, ← List.concat_eq_append]
    exact placing.distinct.concat apart
  parentsFirst := placing.parentsFirst.append c above

def unentered (contracts : List ContractDef) (state : Placed) : Nat :=
  contracts.countP fun c => decide (c.name ∉ state.entered)

/-- Whether a state comes later in one ordering. -/
structure Later (first second : Placed) : Prop where
  entered : first.entered ⊆ second.entered
  placed : names first.ordered ⊆ names second.ordered

theorem Later.refl (state : Placed) : Later state state :=
  ⟨List.Subset.refl _, List.Subset.refl _⟩

theorem Later.trans {first second third : Placed} (one : Later first second)
    (two : Later second third) : Later first third :=
  ⟨fun _ member => two.entered (one.entered member), fun _ member => two.placed (one.placed member)⟩

theorem unentered_le (contracts : List ContractDef) (first second : Placed)
    (later : Later first second) : unentered contracts second ≤ unentered contracts first := by
  refine List.countP_mono_left fun c _ fresh => ?_
  simp only [decide_eq_true_eq] at fresh ⊢
  exact fun entered => fresh (later.entered entered)

theorem unentered_lt (contracts : List ContractDef) (state : Placed) (c : ContractDef)
    (member : c ∈ contracts) (fresh : c.name ∉ state.entered) :
    unentered contracts { state with entered := c.name :: state.entered } <
      unentered contracts state := by
  obtain ⟨before, after, rfl⟩ := List.append_of_mem member
  have later : Later state { state with entered := c.name :: state.entered } :=
    ⟨List.subset_cons_self _ _, List.Subset.refl _⟩
  have before' := unentered_le before _ _ later
  have after' := unentered_le after _ _ later
  unfold unentered at *
  simp only [List.countP_append, List.countP_cons] at *
  simp [fresh] at *
  omega

section Place

variable (contracts : List ContractDef) (acyclic : Acyclic contracts)

/-- What placing a contract does: the contract is placed, and nothing that was done is undone. -/
def Places (fuel : Nat) : Prop :=
  ∀ (waiting : List String) (state : Placed) (c : ContractDef), c ∈ contracts →
    Placing contracts waiting state →
    (∀ name ∈ waiting, Relation.TransGen (IsChild contracts) name c.name) →
    unentered contracts state < fuel →
    Placing contracts waiting (place contracts fuel state c) ∧
      c.name ∈ names (place contracts fuel state c).ordered ∧
      Later state (place contracts fuel state c)

/-- Placing the parents of a contract that waits for them. -/
theorem place_parents (fuel : Nat) (places : Places contracts fuel) (waiting : List String)
    (parents : List String) (state : Placed) (placing : Placing contracts waiting state)
    (above : ∀ parent ∈ parents, ∀ name ∈ waiting,
      Relation.TransGen (IsChild contracts) name parent)
    (enough : unentered contracts state < fuel) :
    let result := parents.foldl (fun state parent =>
      match lookup? contracts parent with
      | some parent => place contracts fuel state parent
      | none => state) state
    Placing contracts waiting result ∧
      (∀ parent ∈ parents, parent ∈ names contracts → parent ∈ names result.ordered) ∧
      Later state result := by
  -- What is placed by one parent stays placed by those after it.
  induction parents generalizing state with
  | nil => exact ⟨placing, by simp, Later.refl state⟩
  | cons parent rest ih =>
    simp only [List.foldl_cons]
    have aboveRest := fun p (member : p ∈ rest) => above p (List.mem_cons_of_mem parent member)
    cases found : lookup? contracts parent with
    | none =>
      obtain ⟨done, placed, later⟩ := ih state placing aboveRest enough
      refine ⟨done, ?_, later⟩
      intro p member known
      rcases List.mem_cons.mp member with rfl | member
      · obtain ⟨c, same⟩ := lookup?_isSome contracts p known
        cases found.symm.trans same
      · exact placed p member known
    | some c =>
      obtain ⟨isContract, rfl⟩ := lookup?_some contracts parent c found
      obtain ⟨first, isPlaced, early⟩ := places waiting state c isContract placing
        (above c.name List.mem_cons_self) enough
      obtain ⟨done, placed, later⟩ := ih _ first aboveRest
        (Nat.lt_of_le_of_lt (unentered_le contracts _ _ early) enough)
      refine ⟨done, ?_, early.trans later⟩
      intro p member known
      rcases List.mem_cons.mp member with rfl | member
      · exact later.placed isPlaced
      · exact placed p member known

include acyclic in
theorem place_places (fuel : Nat) : Places contracts fuel := by
  -- The induction is on the fuel, which bounds the names that are not entered.
  induction fuel with
  | zero =>
    intro waiting state c _ _ _ enough
    exact absurd enough (Nat.not_lt_zero _)
  | succ fuel ih =>
    intro waiting state c isContract placing above enough
    unfold place
    by_cases old : c.name ∈ state.entered
    · rw [if_pos (List.contains_iff_mem.mpr old)]
      refine ⟨placing, ?_, Later.refl state⟩
      -- A name that waits for this contract cannot be that of the contract itself.
      rcases (placing.entered c.name).mp old with waits | placed
      · exact absurd (above c.name waits) (acyclic c.name)
      · exact placed
    · rw [if_neg (fun known => old (List.contains_iff_mem.mp known))]
      have aboveParents : ∀ parent ∈ c.parents, ∀ name ∈ c.name :: waiting,
          Relation.TransGen (IsChild contracts) name parent := by
        intro parent isParent name member
        have step : IsChild contracts c.name parent := ⟨c, isContract, rfl, isParent⟩
        rcases List.mem_cons.mp member with rfl | member
        · exact .single step
        · exact (above name member).tail step
      obtain ⟨done, placed, later⟩ := place_parents contracts fuel ih (c.name :: waiting) c.parents
        _ (placing.enter c old) aboveParents
        (Nat.lt_of_lt_of_le (unentered_lt contracts state c isContract old) (by omega))
      have other : c.name ∉ waiting := fun waits => acyclic c.name (above c.name waits)
      refine ⟨done.append c isContract other placed, by simp, ?_⟩
      refine ⟨fun name member => later.entered (List.mem_cons_of_mem c.name member), ?_⟩
      intro name member
      rw [names_append]
      exact List.mem_append_left _ (later.placed member)

end Place

/-- Placing the contracts of a list one after the other, with none waiting. -/
theorem place_all (contracts : List ContractDef) (acyclic : Acyclic contracts) (fuel : Nat)
    (rest : List ContractDef) (state : Placed) (known : ∀ c ∈ rest, c ∈ contracts)
    (placing : Placing contracts [] state) (enough : unentered contracts state < fuel) :
    let result := rest.foldl (place contracts fuel) state
    Placing contracts [] result ∧ (∀ c ∈ rest, c.name ∈ names result.ordered) ∧
      Later state result := by
  induction rest generalizing state with
  | nil => exact ⟨placing, by simp, Later.refl state⟩
  | cons c rest ih =>
    obtain ⟨first, isPlaced, early⟩ := place_places contracts acyclic fuel [] state c
      (known c List.mem_cons_self) placing (by simp) enough
    obtain ⟨done, placed, later⟩ := ih _ (fun d member => known d (List.mem_cons_of_mem c member))
      first (Nat.lt_of_le_of_lt (unentered_le contracts _ _ early) enough)
    refine ⟨done, ?_, early.trans later⟩
    intro d member
    rcases List.mem_cons.mp member with rfl | member
    · exact later.placed isPlaced
    · exact placed d member

/-- Contracts without a cycle are ordered: each name once, and behind the names of its parents. -/
theorem ordered_spec (contracts : List ContractDef) (acyclic : Acyclic contracts) :
    (∀ c ∈ ordered contracts, c ∈ contracts) ∧ (names (ordered contracts)).Nodup ∧
      (∀ name, name ∈ names (ordered contracts) ↔ name ∈ names contracts) ∧
      ParentsFirst contracts (ordered contracts) := by
  have start : Placing contracts [] {} :=
    { entered := by simp [names], apart := by simp, known := by simp, distinct := by simp [names]
      parentsFirst := fun before c after same => by simp at same }
  have enough : unentered contracts {} < contracts.length + 1 :=
    Nat.lt_succ_of_le List.countP_le_length
  obtain ⟨done, placed, _⟩ := place_all contracts acyclic _ contracts {} (fun _ member => member)
    start enough
  refine ⟨done.known, done.distinct, fun name => ⟨?_, ?_⟩, done.parentsFirst⟩
  · intro member
    obtain ⟨c, isPlaced, rfl⟩ := List.mem_map.mp member
    exact List.mem_map_of_mem (done.known c isPlaced)
  · intro member
    obtain ⟨c, isContract, rfl⟩ := List.mem_map.mp member
    exact placed c isContract

/-! ## Contracts with cycles -/

/-- What placing adds, cycles or not: contracts that were given, and as many as names are entered,
each name once. -/
structure Grows (contracts : List ContractDef) (first second : Placed) : Prop where
  added : ∃ added, second.ordered = first.ordered ++ added ∧ (∀ c ∈ added, c ∈ contracts) ∧
    second.entered.Perm (names added ++ first.entered)
  distinct : first.entered.Nodup → second.entered.Nodup

section

variable {contracts : List ContractDef}

theorem Grows.refl (state : Placed) : Grows contracts state state :=
  ⟨⟨[], (List.append_nil _).symm, by simp, .refl _⟩, id⟩

theorem Grows.trans {first second third : Placed} (one : Grows contracts first second)
    (two : Grows contracts second third) : Grows contracts first third := by
  obtain ⟨added, placed, known, entered⟩ := one.added
  obtain ⟨added', placed', known', entered'⟩ := two.added
  refine ⟨⟨added ++ added', ?_, fun c member => ?_, ?_⟩, two.distinct ∘ one.distinct⟩
  · rw [placed', placed, List.append_assoc]
  · exact (List.mem_append.mp member).elim (known c) (known' c)
  · refine entered'.trans ((entered.append_left _).trans ?_)
    rw [names, names, names, List.map_append, ← List.append_assoc]
    exact List.perm_append_comm.append_right _

theorem Grows.entered {first second : Placed} (grows : Grows contracts first second) :
    first.entered ⊆ second.entered := by
  obtain ⟨added, -, -, entered⟩ := grows.added
  exact fun name member => entered.mem_iff.mpr (List.mem_append_right _ member)

/-- A contract is entered, others are placed, and then it is placed itself. -/
theorem Grows.append {state between : Placed} (c : ContractDef) (isContract : c ∈ contracts)
    (fresh : c.name ∉ state.entered)
    (grows : Grows contracts { state with entered := c.name :: state.entered } between) :
    Grows contracts state { between with ordered := between.ordered ++ [c] } := by
  obtain ⟨added, placed, known, entered⟩ := grows.added
  refine ⟨⟨added ++ [c], ?_, fun d member => ?_, ?_⟩, fun distinct =>
    grows.distinct (List.nodup_cons.mpr ⟨fresh, distinct⟩)⟩
  · change between.ordered ++ [c] = _
    rw [placed, List.append_assoc]
  · rcases List.mem_append.mp member with member | last
    · exact known d member
    · exact List.mem_singleton.mp last ▸ isContract
  · refine entered.trans ?_
    rw [names_append, List.append_assoc]
    exact .refl _

end

/-- Placing a contract grows what is placed, and enters its name if there is fuel. -/
theorem place_grows (contracts : List ContractDef) (fuel : Nat) (state : Placed) (c : ContractDef)
    (isContract : c ∈ contracts) : Grows contracts state (place contracts fuel state c) ∧
      (0 < fuel → c.name ∈ (place contracts fuel state c).entered) := by
  induction fuel generalizing state c with
  | zero => exact ⟨Grows.refl state, fun none => absurd none (Nat.lt_irrefl 0)⟩
  | succ fuel ih =>
    -- Without fuel for a parent nothing is entered, so only growth is known of the parents.
    have parents : ∀ (parents : List String) (state : Placed),
        Grows contracts state (parents.foldl (fun state parent =>
          match lookup? contracts parent with
          | some parent => place contracts fuel state parent
          | none => state) state) := by
      intro parents
      induction parents with
      | nil => exact Grows.refl
      | cons parent rest inner =>
        intro state
        rw [List.foldl_cons]
        cases found : lookup? contracts parent with
        | none => exact inner state
        | some above =>
          exact (ih state above (lookup?_some contracts parent above found).1).1.trans (inner _)
    unfold place
    split
    · rename_i old
      exact ⟨Grows.refl state, fun _ => List.contains_iff_mem.mp old⟩
    · rename_i fresh
      have above := parents c.parents { state with entered := c.name :: state.entered }
      refine ⟨above.append c isContract (fun old => fresh (List.contains_iff_mem.mpr old)), ?_⟩
      exact fun _ => above.entered List.mem_cons_self

/-- Placing the contracts of a list one after the other enters all their names. -/
theorem foldl_place_grows (contracts rest : List ContractDef) (state : Placed)
    (known : ∀ c ∈ rest, c ∈ contracts) :
    Grows contracts state (rest.foldl (place contracts (contracts.length + 1)) state) ∧
      ∀ c ∈ rest, c.name ∈ (rest.foldl (place contracts (contracts.length + 1)) state).entered := by
  induction rest generalizing state with
  | nil => exact ⟨Grows.refl state, by simp⟩
  | cons c rest ih =>
    obtain ⟨first, isEntered⟩ := place_grows contracts (contracts.length + 1) state c
      (known c List.mem_cons_self)
    obtain ⟨later, others⟩ := ih (place contracts (contracts.length + 1) state c)
      fun d member => known d (List.mem_cons_of_mem c member)
    refine ⟨first.trans later, fun d member => ?_⟩
    rcases List.mem_cons.mp member with rfl | member
    · exact later.entered (isEntered (Nat.succ_pos _))
    · exact others d member

/-- What is ordered was given, even if the contracts have a cycle. -/
theorem ordered_mem (contracts : List ContractDef) : ∀ c ∈ ordered contracts, c ∈ contracts := by
  obtain ⟨⟨added, placed, known, -⟩, -⟩ :=
    (foldl_place_grows contracts contracts {} fun _ member => member).1
  intro c member
  exact known c (by rwa [ordered, placed] at member)

/-- Contracts with different names are only put in another order, even if they have a cycle. -/
theorem ordered_perm (contracts : List ContractDef) (distinct : (names contracts).Nodup) :
    (ordered contracts).Perm contracts := by
  obtain ⟨⟨⟨added, placed, known, entered⟩, unrepeated⟩, all⟩ :=
    foldl_place_grows contracts contracts {} fun _ member => member
  have same : ordered contracts = added := placed
  rw [same]
  have once : (names added).Nodup := by
    have listed := entered.nodup_iff.mp (unrepeated List.nodup_nil)
    simpa using listed
  refine (List.perm_ext_iff_of_nodup once.of_map distinct.of_map).mpr fun c => ⟨known c, ?_⟩
  intro isContract
  -- Some contract of this name is placed, and there is only one.
  have isEntered := entered.mem_iff.mp (all c isContract)
  simp only [List.append_nil] at isEntered
  obtain ⟨d, isPlaced, named⟩ := List.mem_map.mp isEntered
  exact List.inj_on_of_nodup_map distinct (known d isPlaced) isContract named ▸ isPlaced

theorem reduceBases_sublist (ancestors : Ancestors) (bases : List String) :
    (reduceBases ancestors bases).Sublist bases :=
  List.filter_sublist

end Contract

end GraphQLModels
