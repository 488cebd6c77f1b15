import GraphQLModels.Model.Linearization
import Mathlib.Data.List.Nodup

/-!
# When orders merge

Merging takes the first item that stands behind no other, again and again. It finds an order that
keeps all given ones whenever there is such an order without repetitions, so a class has an order
exactly if those of its bases and the list of its bases are compatible.
-/

namespace GraphQLModels.Model

/-- Whether one list without repetitions keeps the order of every given list. -/
def Compatible {α : Type} (orders : List (List α)) : Prop :=
  ∃ common : List α, common.Nodup ∧ ∀ order ∈ orders, order.Sublist common

variable {α : Type} [BEq α] [LawfulBEq α]

theorem isBehind_iff (item : α) (order : List α) :
    isBehind item order = true ↔ item ∈ order.tail := by
  simp [isBehind]

/-- An item that may be taken next: it is the first of some order and stands behind none. -/
def MayBeNext (orders : List (List α)) (item : α) : Prop :=
  (∃ order ∈ orders, order.head? = some item) ∧ ∀ order ∈ orders, item ∉ order.tail

theorem nextItem?_some (orders : List (List α)) (item : α)
    (chosen : nextItem? orders = some item) : MayBeNext orders item := by
  constructor
  · have isHead := List.mem_of_find?_eq_some chosen
    simpa using isHead
  · have free := List.find?_some chosen
    simpa [isBehind_iff] using free

theorem nextItem?_isSome (orders : List (List α)) (item : α) (next : MayBeNext orders item) :
    ∃ chosen, nextItem? orders = some chosen := by
  obtain ⟨isHead, free⟩ := next
  refine Option.isSome_iff_exists.mp (List.find?_isSome.mpr ⟨item, ?_, ?_⟩)
  · simpa using isHead
  · simpa [isBehind_iff] using free

theorem afterItem_cons (item : α) (rest : List α) : afterItem item (item :: rest) = rest := by
  simp [afterItem]

theorem afterItem_of_head?_ne (item : α) (order : List α) (other : order.head? ≠ some item) :
    afterItem item order = order := by
  simp [afterItem, other]

/-- An order is what is left of it, perhaps behind the item that was taken. -/
theorem afterItem_cases (item : α) (order : List α) :
    order = item :: afterItem item order ∨
      order.head? ≠ some item ∧ afterItem item order = order := by
  by_cases first : order.head? = some item
  · obtain ⟨rest, rfl⟩ := List.head?_eq_some_iff.mp first
    exact .inl (by rw [afterItem_cons])
  · exact .inr ⟨first, afterItem_of_head?_ne item order first⟩

theorem afterItem_sublist (item : α) (order : List α) : (afterItem item order).Sublist order := by
  rcases afterItem_cases item order with same | ⟨_, same⟩
  · rw [same, afterItem_cons]
    exact List.sublist_cons_self item _
  · rw [same]

/-- Nothing of an item that may be taken is left. -/
theorem not_mem_afterItem (orders : List (List α)) (item : α) (next : MayBeNext orders item)
    (order : List α) (member : order ∈ orders) : item ∉ afterItem item order := by
  have free := next.2 order member
  rcases afterItem_cases item order with same | ⟨first, same⟩
  · rw [same] at free
    exact free
  · rw [same]
    cases order with
    | nil => simp
    | cons head tail =>
      have different : item ≠ head := fun equal => first (by rw [equal]; rfl)
      simpa [different] using free

/-- Merging keeps every order, adds nothing and repeats nothing. -/
theorem merge_some (fuel : Nat) (orders : List (List α)) (merged : List α)
    (given : merge fuel orders = some merged) :
    merged.Nodup ∧ (∀ order ∈ orders, order.Sublist merged) ∧
      ∀ item ∈ merged, ∃ order ∈ orders, item ∈ order := by
  -- The induction is on the fuel, over what is left of the orders after each item.
  induction fuel generalizing orders merged with
  | zero =>
    unfold merge at given
    split at given
    next empty =>
      cases given
      simp only [List.all_eq_true, List.isEmpty_iff] at empty
      exact ⟨List.nodup_nil, fun order member => by rw [empty order member], by simp⟩
    next => cases given
  | succ fuel ih =>
    unfold merge at given
    split at given
    next empty =>
      cases given
      simp only [List.all_eq_true, List.isEmpty_iff] at empty
      exact ⟨List.nodup_nil, fun order member => by rw [empty order member], by simp⟩
    next =>
      obtain ⟨item, chosen, given⟩ := Option.bind_eq_some_iff.mp given
      obtain ⟨rest, later, same⟩ := Option.bind_eq_some_iff.mp given
      cases same
      have next := nextItem?_some orders item chosen
      obtain ⟨distinct, keeps, comes⟩ := ih _ rest later
      refine ⟨List.nodup_cons.mpr ⟨?_, distinct⟩, ?_, ?_⟩
      · -- Nothing is left of an item once it is taken.
        intro repeated
        obtain ⟨left, isLeft, member⟩ := comes item repeated
        obtain ⟨order, isOrder, rfl⟩ := List.mem_map.mp isLeft
        exact not_mem_afterItem orders item next order isOrder member
      · intro order isOrder
        have kept := keeps _ (List.mem_map_of_mem isOrder)
        rcases afterItem_cases item order with same | ⟨_, same⟩
        · rw [same]
          exact kept.cons_cons item
        · rw [← same]
          exact kept.cons item
      · intro other member
        rcases List.mem_cons.mp member with rfl | member
        · obtain ⟨order, isOrder, first⟩ := next.1
          exact ⟨order, isOrder, List.mem_of_mem_head? first⟩
        · obtain ⟨left, isLeft, member⟩ := comes other member
          obtain ⟨order, isOrder, rfl⟩ := List.mem_map.mp isLeft
          exact ⟨order, isOrder, (afterItem_sublist item order).subset member⟩

omit [BEq α] [LawfulBEq α] in
/-- The first item of a common order that occurs at all may be taken next. -/
theorem exists_mayBeNext (common : List α) (distinct : common.Nodup) (orders : List (List α))
    (keeps : ∀ order ∈ orders, order.Sublist common) (some' : ∃ order ∈ orders, order ≠ []) :
    ∃ item, MayBeNext orders item := by
  induction common with
  | nil =>
    obtain ⟨order, member, nonempty⟩ := some'
    exact absurd (List.sublist_nil.mp (keeps order member)) nonempty
  | cons item rest ih =>
    obtain ⟨fresh, distinct⟩ := List.nodup_cons.mp distinct
    -- An item that is the first of no order is in none of them.
    by_cases occurs : ∃ order ∈ orders, order.head? = some item
    · refine ⟨item, occurs, fun order member behind => ?_⟩
      have tail := (keeps order member).tail
      exact fresh (tail.subset behind)
    · refine ih distinct fun order member => ?_
      rcases List.sublist_cons_iff.mp (keeps order member) with below | ⟨tail, rfl, _⟩
      · exact below
      · exact absurd ⟨_, member, rfl⟩ occurs

theorem length_after_le (orders : List (List α)) (item : α) :
    (orders.map (afterItem item)).flatten.length ≤ orders.flatten.length := by
  induction orders with
  | nil => exact Nat.le_refl 0
  | cons order rest ih =>
    have shorter := (afterItem_sublist item order).length_le
    simp only [List.map_cons, List.flatten_cons, List.length_append]
    omega

theorem length_after_lt (orders : List (List α)) (item : α)
    (isHead : ∃ order ∈ orders, order.head? = some item) :
    (orders.map (afterItem item)).flatten.length < orders.flatten.length := by
  obtain ⟨order, member, first⟩ := isHead
  obtain ⟨tail, rfl⟩ := List.head?_eq_some_iff.mp first
  obtain ⟨before, after, rfl⟩ := List.append_of_mem member
  have before' := length_after_le before item
  have after' := length_after_le after item
  simp only [List.map_append, List.map_cons, List.flatten_append, List.flatten_cons,
    List.length_append, afterItem_cons, List.length_cons]
  omega

theorem merge_isSome (fuel : Nat) (orders : List (List α)) (compatible : Compatible orders)
    (enough : orders.flatten.length ≤ fuel) : ∃ merged, merge fuel orders = some merged := by
  induction fuel generalizing orders with
  | zero =>
    have none : ∀ order ∈ orders, order = [] := by
      have nothing := List.length_eq_zero_iff.mp (Nat.le_zero.mp enough)
      exact List.flatten_eq_nil_iff.mp nothing
    have empty : orders.all List.isEmpty = true := by simpa using none
    exact ⟨[], by rw [merge, if_pos empty]⟩
  | succ fuel ih =>
    by_cases empty : orders.all List.isEmpty = true
    · exact ⟨[], by rw [merge, if_pos empty]⟩
    · obtain ⟨common, distinct, keeps⟩ := compatible
      obtain ⟨item, next⟩ := exists_mayBeNext common distinct orders keeps (by simpa using empty)
      obtain ⟨chosen, isNext⟩ := nextItem?_isSome orders item next
      -- Which item is taken does not matter: what is left stays compatible.
      have shorter := length_after_lt orders chosen (nextItem?_some orders chosen isNext).1
      obtain ⟨merged, rest⟩ := ih (orders.map (afterItem chosen)) ⟨common, distinct, by
        rintro _ isLeft
        obtain ⟨order, isOrder, rfl⟩ := List.mem_map.mp isLeft
        exact (afterItem_sublist chosen order).trans (keeps order isOrder)⟩ (by omega)
      exact ⟨chosen :: merged, by rw [merge, if_neg empty, isNext]; simp [rest]⟩

/-- A class has an order exactly if the orders of its bases and the list of its bases can be kept
together. -/
theorem linearize_isSome_iff (item : α) (bases : List (List α)) :
    (∃ order, linearize item bases = some order) ↔
      Compatible (bases ++ [bases.filterMap List.head?]) := by
  unfold linearize
  constructor
  · rintro ⟨order, given⟩
    obtain ⟨merged, same, _⟩ := Option.map_eq_some_iff.mp given
    obtain ⟨distinct, keeps, _⟩ := merge_some _ _ merged same
    exact ⟨merged, distinct, keeps⟩
  · intro compatible
    obtain ⟨merged, same⟩ := merge_isSome _ _ compatible (Nat.le_refl _)
    exact ⟨item :: merged, Option.map_eq_some_iff.mpr ⟨merged, same, rfl⟩⟩

/-- An order starts with its class and goes on with what stands above the bases. -/
theorem linearize_some (item : α) (bases : List (List α)) (order : List α)
    (given : linearize item bases = some order) : ∃ above, order = item :: above ∧ above.Nodup ∧
      (∀ base ∈ bases, base.Sublist above) ∧ ∀ other ∈ above, ∃ base ∈ bases, other ∈ base := by
  obtain ⟨merged, same, rfl⟩ := Option.map_eq_some_iff.mp given
  obtain ⟨distinct, keeps, comes⟩ := merge_some _ _ merged same
  refine ⟨merged, rfl, distinct, fun base member => keeps base (by simp [member]), ?_⟩
  intro other member
  obtain ⟨order, isOrder, inside⟩ := comes other member
  rcases List.mem_append.mp isOrder with isBase | isHeads
  · exact ⟨order, isBase, inside⟩
  · cases List.mem_singleton.mp isHeads
    obtain ⟨base, isBase, first⟩ := List.mem_filterMap.mp inside
    exact ⟨base, isBase, List.mem_of_mem_head? first⟩

end GraphQLModels.Model
