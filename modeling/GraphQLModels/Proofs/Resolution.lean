import GraphQLModels.FieldType
import GraphQLModels.Proofs.Outcome
import Mathlib.Logic.Function.Iterate

/-!
# Resolution of references

A complete reference is a chain of nameless wrappers around one named type: resolving it names that
type and keeps the lists. An override changes the name at the bottom of a scalar or enum field and
nothing else.
-/

namespace GraphQLModels

namespace FieldType

/-- The field type with another name at its bottom. -/
def retarget (target : String) : FieldType → FieldType
  | .leaf _ kind nullable => .leaf (some target) kind nullable
  | .level inner nullable => .level (inner.retarget target) nullable

/-- Whether an override has a say in the name at the bottom. -/
def takesOverride (type : FieldType) : Bool :=
  type.terminalKind == .scalar || type.terminalKind == .enum

/-- How a name reads inside a number of lists. -/
def listText : Nat → Option String → Option String
  | 0, name => name
  | depth + 1, name => some s!"List[{nameText (listText depth name)}]"

theorem displayName_eq_listText (type : FieldType) :
    type.displayName = listText type.listDepth type.terminalName := by
  induction type with
  | leaf name kind nullable => rfl
  | level inner nullable ih => simp only [displayName, listDepth, terminalName, listText, ih]

@[simp] theorem listDepth_retarget (target : String) (type : FieldType) :
    (type.retarget target).listDepth = type.listDepth := by
  induction type with
  | leaf name kind nullable => rfl
  | level inner nullable ih => simp only [retarget, listDepth, ih]

@[simp] theorem terminalName_retarget (target : String) (type : FieldType) :
    (type.retarget target).terminalName = some target := by
  induction type with
  | leaf name kind nullable => rfl
  | level inner nullable ih => simp only [retarget, terminalName, ih]

@[simp] theorem terminalKind_retarget (target : String) (type : FieldType) :
    (type.retarget target).terminalKind = type.terminalKind := by
  induction type with
  | leaf name kind nullable => rfl
  | level inner nullable ih => simp only [retarget, terminalKind, ih]

end FieldType

namespace Options

/-- A field type under the override for a field of a type. -/
def overridden (options : Options) (type field : Option String) (plain : FieldType) : FieldType :=
  match options.overrideAt? type field with
  | some target => if plain.takesOverride then plain.retarget target else plain
  | none => plain

/-- The name that the override for a field of a type leaves at the bottom of a field type. -/
def targetUnder (options : Options) (type field : Option String) (plain : FieldType) :
    Option String :=
  if plain.takesOverride then (options.overrideAt? type field).orElse fun _ => plain.terminalName
  else plain.terminalName

theorem listDepth_overridden (options : Options) (type field : Option String) (plain : FieldType) :
    (options.overridden type field plain).listDepth = plain.listDepth := by
  unfold overridden
  cases options.overrideAt? type field with
  | none => rfl
  | some target => by_cases taken : plain.takesOverride <;> simp [taken]

theorem terminalName_overridden (options : Options) (type field : Option String)
    (plain : FieldType) :
    (options.overridden type field plain).terminalName =
      options.targetUnder type field plain := by
  unfold overridden targetUnder
  cases options.overrideAt? type field with
  | none => by_cases taken : plain.takesOverride <;> simp [taken]
  | some target => by_cases taken : plain.takesOverride <;> simp [taken]

/-- How a field type reads under an override. -/
theorem displayName_overridden (options : Options) (type field : Option String)
    (plain : FieldType) :
    (options.overridden type field plain).displayName =
      FieldType.listText plain.listDepth (options.targetUnder type field plain) := by
  rw [FieldType.displayName_eq_listText, listDepth_overridden, terminalName_overridden]

theorem overridden_list (options : Options) (type field : Option String) (plain : FieldType) :
    options.overridden type field (.list plain) = .list (options.overridden type field plain) := by
  unfold overridden
  cases options.overrideAt? type field with
  | none => rfl
  | some target =>
    have same : (FieldType.list plain).takesOverride = plain.takesOverride := rfl
    by_cases taken : plain.takesOverride <;> simp [same, taken, FieldType.retarget]

@[simp] theorem overrideAt?_none (options : Options) : options.overrideAt? none none = none := rfl

/-- A type that has a name outside of any field has the same name in a field, or that of an
override. -/
theorem typeName_of_plain (options : Options) (t : SchemaType) (type field name : Option String)
    (plain : options.typeName t none none = .ok name) :
    (options.typeName t type field).map (fun target => FieldType.named target t.kind) =
      .ok (options.overridden type field (.named name t.kind)) := by
  unfold typeName at plain ⊢
  cases kind : t.kind with
  | «enum» =>
    simp only [kind, overrideAt?_none, Except.ok.injEq] at plain
    cases override : options.overrideAt? type field <;>
      simp [overridden, override, FieldType.takesOverride, FieldType.terminalKind,
        FieldType.retarget, Except.map, plain]
  | scalar =>
    simp only [kind, overrideAt?_none, Option.orElse_none] at plain
    cases override : options.overrideAt? type field with
    | none =>
      cases known : t.name.bind options.scalarTarget? with
      | none => simp [known] at plain
      | some target =>
        simp only [known, Except.ok.injEq] at plain
        subst plain
        simp [overridden, override, Except.map]
    | some target =>
      simp [overridden, override, FieldType.takesOverride, FieldType.terminalKind,
        FieldType.retarget, Except.map]
  | object | inputObject | interface | union =>
    simp only [kind, Except.ok.injEq] at plain
    cases override : options.overrideAt? type field <;>
      simp [overridden, override, FieldType.takesOverride, FieldType.terminalKind, Except.map,
        plain]
  | list | nonNull => simp [kind] at plain

end Options

namespace SchemaType

/-- Induction along the wrappers of a reference. -/
theorem unwrapping {motive : SchemaType → Prop}
    (named : ∀ t, t.kind.isWrapper = false → motive t)
    (opened : ∀ t, t.kind.isWrapper = true → t.ofType = none → motive t)
    (wrapped : ∀ t inner, t.kind.isWrapper = true → t.ofType = some inner → motive inner → motive t)
    (t : SchemaType) : motive t := by
  cases kind : t.kind.isWrapper with
  | false => exact named t kind
  | true =>
    cases inside : t.ofType with
    | none => exact opened t kind inside
    | some inner => exact wrapped t inner kind inside (unwrapping named opened wrapped inner)
termination_by sizeOf t
decreasing_by
  rcases t with ⟨k, _, _, _, _, _, _, ofType⟩
  cases inside
  simp only [mk.sizeOf_spec, Option.some.sizeOf_spec]
  omega

theorem isWrapper_iff (kind : TypeKind) :
    kind.isWrapper = true ↔ kind = .nonNull ∨ kind = .list := by
  cases kind <;> decide

theorem resolve_nonNull (options : Options) (type field : Option String) (t inner : SchemaType)
    (kind : t.kind = .nonNull) (wraps : t.ofType = some inner) :
    t.resolve options type field = inner.resolve options type field := by
  rcases t with ⟨k, _, _, _, _, _, _, ofType⟩
  cases kind
  cases wraps
  rfl

theorem resolve_list (options : Options) (type field : Option String) (t inner : SchemaType)
    (kind : t.kind = .list) (wraps : t.ofType = some inner) :
    t.resolve options type field = (inner.resolve options type field).map FieldType.list := by
  rcases t with ⟨k, _, _, _, _, _, _, ofType⟩
  cases kind
  cases wraps
  rfl

theorem resolve_named (options : Options) (type field : Option String) (t : SchemaType)
    (named : t.kind.isWrapper = false) :
    t.resolve options type field =
      (options.typeName t type field).map fun name => .named name t.kind := by
  rcases t with ⟨k, _, _, _, _, _, _, ofType⟩
  cases k <;> first | rfl | cases named

/-- A reference that resolves outside of any field resolves in every field, to the same type under
the field's override. -/
theorem resolve_of_plain (options : Options) (type field : Option String) (t : SchemaType)
    (plain : FieldType) (resolved : t.resolve options none none = .ok plain) :
    t.resolve options type field = .ok (options.overridden type field plain) := by
  induction t using unwrapping generalizing plain with
  | named t kind =>
    rw [resolve_named options none none t kind, Outcome.map_ok_iff] at resolved
    obtain ⟨name, given, rfl⟩ := resolved
    rw [resolve_named options type field t kind]
    exact options.typeName_of_plain t type field name given
  | opened t kind nothing =>
    rcases t with ⟨k, _, _, _, _, _, _, ofType⟩
    cases nothing
    rcases (isWrapper_iff k).mp kind with rfl | rfl <;> cases resolved
  | wrapped t inner kind wraps ih =>
    rcases (isWrapper_iff t.kind).mp kind with nonNull | list
    · rw [resolve_nonNull options _ _ t inner nonNull wraps] at resolved ⊢
      exact ih plain resolved
    · rw [resolve_list options _ _ t inner list wraps] at resolved ⊢
      obtain ⟨below, inside, rfl⟩ := (Outcome.map_ok_iff _ _ _).mp resolved
      rw [ih below inside, Options.overridden_list]
      rfl

/-- A chain of nameless wrappers that ends in a type with a name. -/
inductive IsComplete : SchemaType → Prop
  | named {t : SchemaType} {name : String} (kind : t.kind.isWrapper = false)
      (given : t.name = some name) : IsComplete t
  | wrapped {t inner : SchemaType} (kind : t.kind.isWrapper = true) (nameless : t.name = none)
      (wraps : t.ofType = some inner) (below : IsComplete inner) : IsComplete t

theorem namedType_of_name (t : SchemaType) (name : String) (given : t.name = some name) :
    t.namedType = .ok t := by
  rcases t with ⟨_, n, _, _, _, _, _, _⟩
  cases given
  rfl

theorem namedType_of_wrapper (t inner : SchemaType) (kind : t.kind.isWrapper = true)
    (nameless : t.name = none) (wraps : t.ofType = some inner) :
    t.namedType = inner.namedType := by
  rcases t with ⟨k, n, _, _, _, _, _, ofType⟩
  cases nameless
  cases wraps
  simp only [namedType]
  rw [if_pos kind]

/-- A complete reference reaches a type with a name, and resolving it is naming that type inside of
the lists on the way, whatever the options and the field. -/
theorem IsComplete.resolves {t : SchemaType} (complete : t.IsComplete) :
    ∃ bottom depth, t.namedType = .ok bottom ∧ bottom.kind.isWrapper = false ∧
      bottom.name.isSome = true ∧ ∀ options type field, t.resolve options type field =
        (Options.typeName options bottom type field).map fun name =>
          FieldType.list^[depth] (.named name bottom.kind) := by
  induction complete with
  | @named t name kind given =>
    refine ⟨t, 0, t.namedType_of_name name given, kind, by simp [given], ?_⟩
    exact fun options type field => t.resolve_named options type field kind
  | @wrapped t inner kind nameless wraps below ih =>
    obtain ⟨bottom, depth, reaches, unwrapped, hasName, resolves⟩ := ih
    have reached := (t.namedType_of_wrapper inner kind nameless wraps).trans reaches
    rcases (isWrapper_iff t.kind).mp kind with nonNull | list
    · refine ⟨bottom, depth, reached, unwrapped, hasName, fun options type field => ?_⟩
      rw [t.resolve_nonNull options type field inner nonNull wraps, resolves]
    · refine ⟨bottom, depth + 1, reached, unwrapped, hasName, fun options type field => ?_⟩
      rw [t.resolve_list options type field inner list wraps, resolves]
      cases Options.typeName options bottom type field with
      | error e => rfl
      | ok name => simp [Except.map, Function.iterate_succ_apply']

end SchemaType

end GraphQLModels
