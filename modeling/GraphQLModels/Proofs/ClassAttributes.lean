import GraphQLModels.Proofs.EscapedNames
import GraphQLModels.Proofs.LaidOut

/-!
# Attributes of a class body

The attributes for fields in the body of a class statement are the mark, where the class is that of an
object, and the escaped names of the fields of its definition.
-/

namespace GraphQLModels

/-- The names of the attributes for fields in the body of a class statement, the mark included. -/
def Model.ClassSource.attributeNames (c : Model.ClassSource) : List String :=
  (c.tag?.map fun _ => typenameField).toList ++ c.attributes.map (·.name)

/-- Which names a field is escaped to: its own if that is free, otherwise the one it clashes with. -/
theorem IdentifierUse.escape_eq_name_iff (name identifier : String) :
    escape .field name = identifier ↔ Clashes .field name identifier ∨
      name = identifier ∧ name ∉ reserved .field ∧ Text.beginsWith name "_" = false := by
  rw [escape_field]
  -- A name with an underscore in front is never reserved, so the two escapes do not meet.
  by_cases mark : Text.beginsWith name "_" = true
  · have free : name ∉ reserved .field := by
      intro taken
      have none := reserved_unmarked .field name taken
      have some := (Text.beginsWith_mark name).mp mark
      omega
    rw [if_pos mark]
    constructor
    · intro same
      exact .inl (.setOff rfl mark same.symm)
    · rintro ((⟨taken, -⟩ | ⟨-, -, same⟩) | ⟨-, -, unmarked⟩)
      · exact absurd taken free
      · exact same.symm
      · exact absurd (mark.symm.trans unmarked) (by decide)
  · rw [if_neg mark]
    by_cases taken : name ∈ reserved .field
    · rw [if_pos (List.contains_iff_mem.mpr taken)]
      constructor
      · intro same
        exact .inl (.marked taken same.symm)
      · rintro ((⟨-, same⟩ | ⟨-, begins, -⟩) | ⟨-, free, -⟩)
        · exact same.symm
        · exact absurd begins mark
        · exact absurd taken free
    · rw [if_neg fun listed => taken (List.contains_iff_mem.mp listed)]
      constructor
      · intro same
        exact .inr ⟨same, taken, by simpa using mark⟩
      · rintro ((⟨isTaken, -⟩ | ⟨-, begins, -⟩) | ⟨same, -, -⟩)
        · exact absurd isTaken taken
        · exact absurd begins mark
        · exact same

/-- Whether the class of a definition has an attribute of a name: objects have the mark, a field
whose name is free has an attribute of its name, and any other has one that its name is escaped
to. -/
inductive Definition.HasAttribute : Definition → String → Prop
  | mark (o : ObjectDef) : HasAttribute (.object o) typenameField
  | free {d : Definition} {name : String} (isField : name ∈ d.fieldNames)
      (unreserved : name ∉ IdentifierUse.reserved .field)
      (unmarked : Text.beginsWith name "_" = false) : HasAttribute d name
  | escaped {d : Definition} {name identifier : String} (isField : name ∈ d.fieldNames)
      (clash : IdentifierUse.Clashes .field name identifier) : HasAttribute d identifier

namespace Source

variable {ctx : Context} {ancestors : Contract.Ancestors} {d : Definition} {c : Model.ClassSource}

/-- The attributes in the body of a class are the mark of an object and the escaped names of the
fields. -/
theorem IsClassOf.mem_attributeNames_iff (isClass : IsClassOf ctx ancestors d c) (name : String) :
    name ∈ c.attributeNames ↔ ((∃ o, d = .object o) ∧ name = typenameField) ∨
      ∃ one ∈ d.fieldNames, IdentifierUse.field.escape one = name := by
  have marked : name ∈ (c.tag?.map fun _ => typenameField).toList ↔
      (∃ o, d = .object o) ∧ name = typenameField := by
    cases isClass <;> simp [Model.ClassSource.tag?]
  have held : name ∈ c.attributes.map (·.name) ↔
      ∃ one ∈ d.fieldNames, IdentifierUse.field.escape one = name := by
    rw [← isClass.fieldNames]
    constructor
    · intro listed
      obtain ⟨a, isAttribute, rfl⟩ := List.mem_map.mp listed
      exact ⟨a.fieldName, List.mem_map_of_mem isAttribute, (isClass.escaped a isAttribute).symm⟩
    · rintro ⟨one, isField, rfl⟩
      obtain ⟨a, isAttribute, rfl⟩ := List.mem_map.mp isField
      exact List.mem_map.mpr ⟨a, isAttribute, isClass.escaped a isAttribute⟩
  rw [Model.ClassSource.attributeNames, List.mem_append, marked, held]

/-- The attributes in the body of a class are those that its definition says. -/
theorem IsClassOf.mem_attributeNames (isClass : IsClassOf ctx ancestors d c) (name : String) :
    name ∈ c.attributeNames ↔ d.HasAttribute name := by
  rw [isClass.mem_attributeNames_iff]
  constructor
  · rintro (⟨⟨o, rfl⟩, rfl⟩ | ⟨one, isField, same⟩)
    · exact .mark o
    · rcases (IdentifierUse.escape_eq_name_iff one name).mp same with clash | ⟨rfl, free, unmarked⟩
      · exact .escaped isField clash
      · exact .free isField free unmarked
  · intro has
    cases has with
    | mark o => exact .inl ⟨⟨o, rfl⟩, rfl⟩
    | free isField free unmarked =>
      exact .inr ⟨name, isField,
        (IdentifierUse.escape_eq_name_iff name name).mpr (.inr ⟨rfl, free, unmarked⟩)⟩
    | escaped isField clash =>
      exact .inr ⟨_, isField, (IdentifierUse.escape_eq_name_iff _ name).mpr (.inl clash)⟩

/-- No attribute has an underscore in front. -/
theorem IsClassOf.attributeNames_unmarked (isClass : IsClassOf ctx ancestors d c) :
    ∀ name ∈ c.attributeNames, Text.beginsWith name "_" = false := by
  intro name listed
  rcases List.mem_append.mp listed with mark | held
  · obtain ⟨_, -, rfl⟩ := Option.map_eq_some_iff.mp (Option.mem_toList.mp mark)
    decide
  · obtain ⟨a, isAttribute, rfl⟩ := List.mem_map.mp held
    rw [isClass.escaped a isAttribute]
    exact (IdentifierUse.escape_free a.fieldName).2

end Source

end GraphQLModels
