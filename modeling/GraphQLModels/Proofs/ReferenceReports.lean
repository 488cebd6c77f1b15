import GraphQLModels.Proofs.References

/-!
# What comes of references

Each reference of a list is either resolved or reported. The first one of a name in the table leads
to the entry of the name; one that comes later is a repetition; one without a name, or with a name
that is not in the table, is unknown every time that it comes.
-/

namespace GraphQLModels.Schema

/-- The warning about a reference behind others. Only the first reference of a name in the table
gives none. -/
def complaint? (schema : Schema) (owner : Option String) (relation : Relation)
    (before : List SchemaType) (reference : SchemaType) : Option Warning :=
  match reference.name with
  | none => some (.unknownReference owner relation.label none)
  | some name =>
    if (schema.find? name).isNone then some (.unknownReference owner relation.label (some name))
    else if before.any fun other => other.name == some name then
      some (.repeatedReference owner relation.label name)
    else none

/-- The names that have been seen once a reference has been read: only one of the table is added. -/
def remember (schema : Schema) (seen : List String) (reference : SchemaType) : List String :=
  match reference.name with
  | none => seen
  | some name => if (schema.find? name).isSome && !seen.contains name then name :: seen else seen

/-- Whether the names that have been seen are those of the table among the names of references. -/
def Remembers (schema : Schema) (seen : List String) (before : List SchemaType) : Prop :=
  ∀ name, name ∈ seen ↔
    (schema.find? name).isSome ∧ ∃ reference ∈ before, reference.name = some name

variable {schema : Schema} {seen : List String} {before : List SchemaType}

theorem Remembers.next (remembers : schema.Remembers seen before) (reference : SchemaType) :
    schema.Remembers (schema.remember seen reference) (before ++ [reference]) := by
  intro other
  have split : (∃ r ∈ before ++ [reference], r.name = some other) ↔
      (∃ r ∈ before, r.name = some other) ∨ reference.name = some other := by
    simp [or_and_right, exists_or]
  rw [split, and_or_left, ← remembers other, remember]
  cases named : reference.name with
  | none => simp
  | some name =>
    by_cases same : name = other
    · subst same
      by_cases old : name ∈ seen
      · simp [old]
      · by_cases known : (schema.find? name).isSome <;> simp [old, known]
    · have apart : other ≠ name := Ne.symm same
      dsimp only
      split <;> simp [same, apart]

/-- A reference gives its warning and is remembered. -/
theorem warnings_step (owner : Option String) (relation : Relation)
    (remembers : schema.Remembers seen before) (reference : SchemaType) (rest : List SchemaType) :
    (schema.resolveFrom owner relation seen (reference :: rest)).1 =
      (schema.complaint? owner relation before reference).toList ++
        (schema.resolveFrom owner relation (schema.remember seen reference) rest).1 := by
  rw [resolveFrom, resolve?, complaint?, remember]
  cases named : reference.name with
  | none => rfl
  | some name =>
    rw [Option.bind_some]
    cases found : schema.find? name with
    | none => simp [found]
    | some full =>
      have repeated : (before.any fun other => other.name == some name) = seen.contains name := by
        rw [Bool.eq_iff_iff, List.contains_iff_mem, remembers name]
        simp [found]
      by_cases old : name ∈ seen
      · simp [found, repeated, old]
      · simp [found, repeated, old]

/-- Behind references that are remembered, the warnings are those about the references one by one. -/
theorem warnings_resolveFrom (owner : Option String) (relation : Relation)
    (remembers : schema.Remembers seen before) (references : List SchemaType) :
    (schema.resolveFrom owner relation seen references).1 =
      (references.zipIdx before.length).filterMap fun entry =>
        schema.complaint? owner relation ((before ++ references).take entry.2) entry.1 := by
  induction references generalizing seen before with
  | nil => rfl
  | cons reference rest ih =>
    have onward : before ++ reference :: rest = before ++ [reference] ++ rest := by simp
    have further : before.length + 1 = (before ++ [reference]).length := by simp
    rw [warnings_step owner relation remembers, ih (remembers.next reference), List.zipIdx_cons,
      List.filterMap_cons, List.take_left, ← onward, ← further]
    cases schema.complaint? owner relation before reference <;> rfl

/-- No reference is lost, and none is told of twice. -/
theorem length_resolveFrom (schema : Schema) (owner : Option String) (relation : Relation)
    (seen : List String) (references : List SchemaType) :
    (schema.resolveFrom owner relation seen references).2.length +
      (schema.resolveFrom owner relation seen references).1.length = references.length := by
  induction references generalizing seen with
  | nil => rfl
  | cons reference rest ih =>
    rw [resolveFrom]
    split
    · split
      · simp only [List.length_cons, ← ih seen]
        omega
      · rename_i name _ _ _ _
        simp only [List.length_cons, ← ih (name :: seen)]
        omega
    · simp only [List.length_cons, ← ih seen]
      omega

/-- **Every reference is resolved or reported, exactly once.** A list of references gives the table
entries of its known names, each once, in the order in which the names first come, and a warning for
each further reference, in the order of the list: it repeats a known name, or it has no name in the
table. So there are as many references as entries and warnings. -/
theorem references_accounted {ε : Type} (schema : Schema) (owner : Option String)
    (relation : Relation) (references : List SchemaType) :
    let report : Report ε (List SchemaType) := schema.resolveReferences owner relation references
    ∃ found, report.outcome = .ok found ∧
      List.Forall₂ (fun name full => schema.find? name = some full) (schema.knownNames references)
        found ∧
      report.warnings = references.zipIdx.filterMap (fun entry =>
        schema.complaint? owner relation (references.take entry.2) entry.1) ∧
      found.length + report.warnings.length = references.length ∧ report.events = [] := by
  have start : schema.Remembers [] [] := fun name => by simp
  exact ⟨_, rfl, schema.entries_resolveFrom owner relation references,
    warnings_resolveFrom owner relation start references,
    schema.length_resolveFrom owner relation [] references, rfl⟩

end GraphQLModels.Schema
