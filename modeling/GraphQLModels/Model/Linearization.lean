/-!
# Linearization

The order in which a class and everything above it are searched: a class comes before its bases,
bases keep the order in which they are listed, and every base's own order is kept.
-/

namespace GraphQLModels.Model

variable {α : Type} [BEq α]

/-- Whether an item stands in an order behind its first item. -/
def isBehind (item : α) (order : List α) : Bool := order.tail.contains item

/-- The first item of some order that stands behind the first item of none. -/
def nextItem? (orders : List (List α)) : Option α :=
  (orders.filterMap List.head?).find? fun item => !orders.any (isBehind item)

/-- The order after an item, if the item is its first one. -/
def afterItem (item : α) (order : List α) : List α :=
  if order.head? == some item then order.tail else order

/-- Merges orders into one that keeps them all, if there is one. Every step takes an item from some
order, so the sum of the lengths is enough fuel. -/
def merge : Nat → List (List α) → Option (List α)
  | 0, orders => if orders.all List.isEmpty then some [] else none
  | fuel + 1, orders =>
    if orders.all List.isEmpty then some []
    else do
      let item ← nextItem? orders
      return item :: (← merge fuel (orders.map (afterItem item)))

/-- The order of a class over the orders of its bases, if there is one. -/
def linearize (item : α) (bases : List (List α)) : Option (List α) :=
  -- The list of the bases is merged as well, which keeps them in the order they are listed in.
  let orders := bases ++ [bases.filterMap List.head?]
  (merge orders.flatten.length orders).map (item :: ·)

end GraphQLModels.Model
