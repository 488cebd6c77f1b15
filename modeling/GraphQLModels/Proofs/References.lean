import GraphQLModels.Proofs.Emission

/-!
# The order of references

A list of references leads to the table entries of its names: each name of the table once, in the
order in which the names first come. So the entries have different names, and the references that
lead nowhere or come again make no difference to what is found.
-/

namespace GraphQLModels

/-! ## Lists without repetition -/

theorem eraseDups_nodup {α : Type} [BEq α] [LawfulBEq α] (xs : List α) : xs.eraseDups.Nodup := by
  induction h : xs.length using Nat.strongRecOn generalizing xs with
  | ind length ih =>
    cases xs with
    | nil => exact List.nodup_nil
    | cons x xs =>
      rw [List.eraseDups_cons]
      have shorter : (xs.filter fun y => !y == x).length < length := by
        rw [← h]
        exact Nat.lt_succ_of_le (List.length_filter_le _ _)
      refine List.nodup_cons.mpr ⟨?_, ih _ shorter _ rfl⟩
      intro repeated
      simpa using List.mem_eraseDups.mp repeated

theorem eraseDups_eq_iff {α : Type} [BEq α] [LawfulBEq α] (xs : List α) :
    xs.eraseDups = xs ↔ xs.Nodup := by
  constructor
  · intro same
    rw [← same]
    exact eraseDups_nodup xs
  · intro distinct
    induction distinct with
    | nil => rfl
    | @cons x xs fresh _ ih =>
      have others : xs.filter (fun y => !y == x) = xs := by
        refine List.filter_eq_self.mpr fun y member => ?_
        simpa using (fresh y member).symm
      rw [List.eraseDups_cons, others, ih]

/-- It makes no difference whether items are left out before or after repetitions are. -/
theorem eraseDups_filter {α : Type} [BEq α] [LawfulBEq α] (p : α → Bool) (xs : List α) :
    (xs.filter p).eraseDups = xs.eraseDups.filter p := by
  -- The induction is on the length, since what follows an item is filtered once more.
  induction h : xs.length using Nat.strongRecOn generalizing xs with
  | ind length ih =>
    cases xs with
    | nil => rfl
    | cons x xs =>
      have shorter : (xs.filter fun y => !y == x).length < length := by
        rw [← h]
        exact Nat.lt_succ_of_le (List.length_filter_le _ _)
      have rest := ih _ shorter (xs.filter fun y => !y == x) rfl
      rw [List.filter_filter] at rest
      rw [List.eraseDups_cons, List.filter_cons, List.filter_cons]
      cases kept : p x with
      | true =>
        rw [if_pos rfl, if_pos rfl, List.eraseDups_cons, List.filter_filter, ← rest]
        simp only [Bool.and_comm]
      | false =>
        -- An item that is left out takes its repetitions with it.
        have same : xs.filter p = xs.filter fun y => p y && !y == x := by
          refine List.filter_congr fun y _ => ?_
          by_cases equal : y = x
          · simp [equal, kept]
          · simp [equal]
        rw [if_neg Bool.false_ne_true, if_neg Bool.false_ne_true, same, rest]

namespace Schema

/-! ## What references lead to -/

/-- Every type is found under its name. -/
theorem find?_isSome (schema : Schema) (t : SchemaType) (listed : t ∈ schema.types) (name : String)
    (named : t.name = some name) : (schema.find? name).isSome := by
  apply List.find?_isSome.mpr
  exact ⟨t, listed, by simp [named]⟩

/-- The names of a list of references that are in the table, each once. -/
def knownNames (schema : Schema) (references : List SchemaType) : List String :=
  (references.filterMap (·.name)).eraseDups.filter fun name => (schema.find? name).isSome

theorem mem_knownNames (schema : Schema) (references : List SchemaType) (name : String) :
    name ∈ schema.knownNames references ↔
      (∃ reference ∈ references, reference.name = some name) ∧ (schema.find? name).isSome := by
  simp [knownNames, List.mem_filter, List.mem_eraseDups, List.mem_filterMap]

theorem knownNames_nodup (schema : Schema) (references : List SchemaType) :
    (schema.knownNames references).Nodup :=
  (eraseDups_nodup _).filter _

/-- References lead to the entries of their names that have not been seen. -/
theorem resolveFrom_eq (schema : Schema) (owner : Option String) (relation : Relation)
    (seen : List String) (references : List SchemaType) :
    (schema.resolveFrom owner relation seen references).2 =
      ((references.filterMap (·.name)).filter (!seen.contains ·)).eraseDups.filterMap
        schema.find? := by
  -- What has been seen grows only by names of the table; the others are found to be nothing.
  induction references generalizing seen with
  | nil => rfl
  | cons reference rest ih =>
    rw [resolveFrom_cons, resolve?]
    cases named : reference.name with
    | none => simpa [named] using ih seen
    | some name =>
      rw [List.filterMap_cons_some named, List.filter_cons, Option.bind_some]
      by_cases old : name ∈ seen
      · have seenName : (!seen.contains name) = false := by simpa using old
        rw [seenName, if_neg Bool.false_ne_true, ← ih seen]
        cases schema.find? name with
        | none => rfl
        | some full => simp [old]
      · have fresh : (!seen.contains name) = true := by simpa using old
        rw [fresh, if_pos rfl, List.eraseDups_cons, List.filterMap_cons, eraseDups_filter]
        cases found : schema.find? name with
        | none =>
          -- Nothing is lost with the repetitions of a name that is not in the table.
          dsimp only
          rw [ih, List.filterMap_filter]
          refine List.filterMap_congr fun other _ => ?_
          by_cases same : other = name
          · simp [same, found]
          · simp [same]
        | some full =>
          simp only [old, if_false]
          rw [ih, ← eraseDups_filter, List.filter_filter]
          congr 3
          refine List.filter_congr fun other _ => ?_
          by_cases same : other = name
          · simp [same]
          · simp [same]

/-- A list of references leads to the entries of its known names, in order. -/
theorem resolveFrom_nil (schema : Schema) (owner : Option String) (relation : Relation)
    (references : List SchemaType) :
    (schema.resolveFrom owner relation [] references).2 =
      (schema.knownNames references).filterMap schema.find? := by
  rw [resolveFrom_eq, knownNames, List.filterMap_filter]
  have all : (references.filterMap (·.name)).filter (!([] : List String).contains ·) =
      references.filterMap (·.name) :=
    List.filter_eq_self.mpr fun _ _ => rfl
  rw [all]
  refine List.filterMap_congr fun name _ => ?_
  cases schema.find? name <;> rfl

/-- Each known name of a list of references leads to its entry, in order. -/
theorem entries_resolveFrom (schema : Schema) (owner : Option String) (relation : Relation)
    (references : List SchemaType) :
    List.Forall₂ (fun name full => schema.find? name = some full) (schema.knownNames references)
      (schema.resolveFrom owner relation [] references).2 := by
  rw [resolveFrom_nil]
  have known : ∀ name ∈ schema.knownNames references, (schema.find? name).isSome := by
    intro name member
    exact ((schema.mem_knownNames references name).mp member).2
  generalize schema.knownNames references = names at known ⊢
  induction names with
  | nil => exact .nil
  | cons name rest ih =>
    rw [List.forall_mem_cons] at known
    obtain ⟨full, found⟩ := Option.isSome_iff_exists.mp known.1
    rw [List.filterMap_cons_some found]
    exact .cons found (ih known.2)

/-- The entries that a list of references leads to have the known names of the list. -/
theorem names_resolveFrom (schema : Schema) (owner : Option String) (relation : Relation)
    (references : List SchemaType) :
    (schema.resolveFrom owner relation [] references).2.map (·.name) =
      (schema.knownNames references).map some := by
  refine Outcome.forall₂_map (·.name) some ?_ (schema.entries_resolveFrom owner relation references)
  exact fun name full found => (schema.find?_some name full found).1

/-- The unions of a name are the unions of the table that list it. -/
theorem mem_unionsOf (schema : Schema) (name : String) (u : SchemaType) :
    u ∈ schema.unionsOf name ↔ u ∈ schema.types ∧ u.kind = .union ∧
      ∃ reference ∈ u.possibleTypes, reference.name = some name := by
  simp [unionsOf, ofKind, List.mem_filter, and_comm]

theorem names_membersOf (schema : Schema) (t : SchemaType) :
    (schema.membersOf t).map (·.name) = (schema.knownNames t.possibleTypes).map some :=
  schema.names_resolveFrom _ _ _

theorem names_parentsOf (schema : Schema) (t : SchemaType) :
    (schema.parentsOf t).map (·.name) = (schema.knownNames t.interfaces).map some :=
  schema.names_resolveFrom _ _ _

end Schema

/-! ## Target names -/

theorem contractName_inj (one other : Option String) :
    contractName one = contractName other ↔ nameText one = nameText other :=
  String.append_right_inj "I"

/-- Types whose target names are known are named by them. -/
theorem targetNames_eq (options : Options) (types : List SchemaType) (names : List String)
    (target : SchemaType → String)
    (each : ∀ t ∈ types, options.plainTypeName t = .ok (some (target t)))
    (given : targetNames options types = .ok names) : names = types.map target := by
  have related := (Outcome.mapM_ok_iff _ _ _).mp given
  clear given
  induction related with
  | nil => rfl
  | @cons t name _ _ same _ ih =>
    rw [each t List.mem_cons_self] at same
    cases same
    rw [List.map_cons, ih fun u member => each u (List.mem_cons_of_mem t member)]
    rfl

/-- Interfaces are named by their contracts. -/
theorem targetNames_interfaces (options : Options) (types : List SchemaType) (names : List String)
    (interfaces : ∀ t ∈ types, t.kind = .interface)
    (given : targetNames options types = .ok names) :
    names = types.map fun t => contractName t.name := by
  refine targetNames_eq options types names _ (fun t member => ?_) given
  simp [Options.plainTypeName, Options.typeName, interfaces t member]

/-- The contracts of the interfaces that a type states are those of its known names. -/
theorem parentNames_eq (schema : Schema) (t : SchemaType) :
    (schema.parentsOf t).map (fun p => contractName p.name) =
      (schema.knownNames t.interfaces).map fun name => contractName (some name) := by
  have names := congrArg (List.map contractName) (schema.names_parentsOf t)
  rwa [List.map_map, List.map_map] at names

/-- The contracts of the interfaces that a type states are different. -/
theorem parentNames_nodup (schema : Schema) (t : SchemaType) :
    ((schema.parentsOf t).map fun p => contractName p.name).Nodup := by
  rw [parentNames_eq]
  refine (schema.knownNames_nodup t.interfaces).map fun one other same => ?_
  exact (contractName_inj (some one) (some other)).mp same

/-! ## Contracts of a class -/

/-- A name is added at the end of the known ones if it is not among them. -/
def addAbsent (known : List String) (name : String) : List String :=
  if known.contains name then known else known ++ [name]

theorem mem_foldl_addAbsent (known names : List String) (name : String) :
    name ∈ names.foldl addAbsent known ↔ name ∈ known ∨ name ∈ names := by
  induction names generalizing known with
  | nil => simp
  | cons first rest ih =>
    rw [List.foldl_cons, ih, addAbsent]
    by_cases old : first ∈ known
    · simp only [List.contains_iff_mem, old, if_true, List.mem_cons]
      constructor
      · rintro (isKnown | later)
        · exact .inl isKnown
        · exact .inr (.inr later)
      · rintro (isKnown | rfl | later)
        · exact .inl isKnown
        · exact .inl old
        · exact .inr later
    · simp [old, or_assoc]

theorem foldl_addAbsent_nodup (known names : List String) (distinct : known.Nodup) :
    (names.foldl addAbsent known).Nodup := by
  induction names generalizing known with
  | nil => exact distinct
  | cons first rest ih =>
    apply ih
    rw [addAbsent]
    split
    next => exact distinct
    next fresh =>
      rw [← List.concat_eq_append]
      exact distinct.concat fun old => fresh (List.contains_iff_mem.mpr old)

/-- Different names are added at the end, in order, save those that are known. -/
theorem foldl_addAbsent_filter (known names : List String) (distinct : names.Nodup) :
    names.foldl addAbsent known = known ++ names.filter (· ∉ known) := by
  induction distinct generalizing known with
  | nil => simp
  | @cons name rest fresh _ ih =>
    by_cases old : name ∈ known
    · simp [addAbsent, old, ih]
    · -- The name that is added now is none of those that follow.
      have others : rest.filter (· ∉ known ++ [name]) = rest.filter (· ∉ known) := by
        refine List.filter_congr fun later member => ?_
        simp [(fresh later member).symm]
      have added : addAbsent known name = known ++ [name] := by simp [addAbsent, old]
      rw [List.foldl_cons, added, ih, others, List.append_assoc, List.singleton_append,
        List.filter_cons_of_pos (by simpa using old)]

/-- New names are added at the end, in order. -/
theorem foldl_addAbsent_eq (known names : List String) (distinct : (known ++ names).Nodup) :
    names.foldl addAbsent known = known ++ names := by
  obtain ⟨-, among, apart⟩ := List.nodup_append.mp distinct
  rw [foldl_addAbsent_filter known names among, List.filter_eq_self.mpr]
  intro name member
  exact decide_eq_true fun old => apart name old name member rfl

/-- The contracts of a class are its interfaces, with the contracts of its unions added. -/
theorem contractsOf_eq (schema : Schema) (t : SchemaType) (interfaces : List String) :
    contractsOf schema t interfaces = (((t.name.map schema.unionsOf).getD []).map fun u =>
      contractName u.name).foldl addAbsent interfaces := by
  rw [List.foldl_map]
  rfl

theorem contractsOf_nodup (schema : Schema) (t : SchemaType) (interfaces : List String)
    (distinct : interfaces.Nodup) : (contractsOf schema t interfaces).Nodup := by
  rw [contractsOf_eq]
  exact foldl_addAbsent_nodup interfaces _ distinct

/-- Each contract of a class is one of its interfaces or that of a union. -/
theorem contractsOf_from (schema : Schema) (t : SchemaType) (interfaces : List String)
    (name : String) (member : name ∈ contractsOf schema t interfaces) :
    name ∈ interfaces ∨ ∃ u ∈ schema.types, u.kind = .union ∧ name = contractName u.name := by
  rw [contractsOf_eq, mem_foldl_addAbsent] at member
  refine member.imp_right fun isUnion => ?_
  obtain ⟨u, among, rfl⟩ := List.mem_map.mp isUnion
  cases named : t.name with
  | none => simp [named] at among
  | some text =>
    rw [named, Option.map_some, Option.getD_some] at among
    obtain ⟨isType, union, _⟩ := (schema.mem_unionsOf text u).mp among
    exact ⟨u, isType, union, rfl⟩

end GraphQLModels
