import GraphQLModels.Definition

/-!
# The hierarchy of contracts

Contracts are put in an order in which parents come before their children, each contract is given
the set of its ancestors, and a list of bases is thinned out to those that no other base implies.
-/

namespace GraphQLModels.Contract

/-- What an ordering has done so far: the names it has entered and the contracts it has placed. -/
structure Placed where
  entered : List String := []
  ordered : List ContractDef := []

/-- The contract that a name stands for: of several, the last. -/
def lookup? (contracts : List ContractDef) (name : String) : Option ContractDef :=
  contracts.reverse.find? fun c => c.name == name

/-- Places a contract after its parents. The first argument bounds the length of a chain of
parents. -/
def place (contracts : List ContractDef) : Nat → Placed → ContractDef → Placed
  | 0, state, _ => state
  | fuel + 1, state, c =>
    if state.entered.contains c.name then state
    else
      -- A name is entered before its parents are placed, so a circle of parents comes back to an
      -- entered name and stops there.
      let state := c.parents.foldl (fun state parent =>
        match lookup? contracts parent with
        | some parent => place contracts fuel state parent
        | none => state) { state with entered := c.name :: state.entered }
      { state with ordered := state.ordered ++ [c] }

/-- The contracts in order, except that parents come before their children. A chain of parents that
are entered for the first time is no longer than the list. -/
def ordered (contracts : List ContractDef) : List ContractDef :=
  (contracts.foldl (place contracts (contracts.length + 1)) {}).ordered

abbrev Ancestors := List (String × List String)

/-- The ancestors of a name; an unknown name has none. -/
def Ancestors.of (ancestors : Ancestors) (name : String) : List String :=
  (findKey? name ancestors).getD []

/-- Adds the ancestors of a contract whose parents are known: its parents and their ancestors. -/
def Ancestors.add (ancestors : Ancestors) (c : ContractDef) : Ancestors :=
  setKey c.name (c.parents.flatMap fun parent => parent :: ancestors.of parent).eraseDups ancestors

/-- The ancestors of contracts whose parents come before them. -/
def ancestors (contracts : List ContractDef) : Ancestors := contracts.foldl Ancestors.add []

/-- The bases that no other base has as an ancestor. -/
def reduceBases (ancestors : Ancestors) (bases : List String) : List String :=
  bases.filter fun base =>
    !bases.any fun other => other != base && (ancestors.of other).contains base

end GraphQLModels.Contract
