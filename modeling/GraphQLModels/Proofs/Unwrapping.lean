import GraphQLModels.Proofs.Resolution
import GraphQLModels.Source.Layout
import Mathlib.Logic.Relation

/-!
# Unwrapping references

A reference is unwrapped in two ways: it is resolved by the kinds of its nodes, and its named type
is searched by their names. Where wrappers have no name and everything else has one, both fail on
the same references, those that end in a wrapper around nothing, and else both end in the same type.
What is in between is the lists on the way: a non-null wrapper leaves no trace in either.
-/

namespace GraphQLModels

/-- Whether an error is about a reference that does not reach a named type. -/
def ResolutionError.IsIncomplete : ResolutionError → Prop
  | .openWrapper _ | .neverNamed _ => True
  | .unknownScalar _ _ _ | .unsupportedKind _ _ => False

/-- How many lists a type has around its name, if null is allowed at each of its levels. -/
def Source.TypeExpr.nullableDepth? : TypeExpr → Option Nat
  | .optional (.name _) => some 0
  | .optional (.list inner) => inner.nullableDepth?.map (· + 1)
  | _ => none

theorem Source.nullableDepth?_nullableType (name : String) (type : FieldType) :
    (Source.nullableType name type).nullableDepth? = some type.listDepth := by
  induction type with
  | leaf target kind nullable => rfl
  | level inner nullable ih => rw [nullableType, TypeExpr.nullableDepth?, ih, Option.map_some,
      FieldType.listDepth]

namespace FieldType

theorem listDepth_iterate (depth : Nat) (type : FieldType) :
    (FieldType.list^[depth] type).listDepth = type.listDepth + depth := by
  induction depth with
  | zero => rfl
  | succ depth ih => rw [Function.iterate_succ_apply', listDepth, ih, Nat.add_assoc]

theorem terminal_iterate (depth : Nat) (type : FieldType) :
    (FieldType.list^[depth] type).terminal = type.terminal := by
  induction depth with
  | zero => rfl
  | succ depth ih => rw [Function.iterate_succ_apply', terminal, ih]

end FieldType

namespace SchemaType

/-! ## The nodes of a reference -/

/-- The nodes of a reference from the outside in: its wrappers, and the first type that is none. -/
def nodes (t : SchemaType) : List SchemaType :=
  match t with
  | { ofType := some inner, kind, .. } => if kind.isWrapper then t :: inner.nodes else [t]
  | { ofType := none, .. } => [t]
termination_by structural t

/-- Whether the wrappers of a reference have no name and the type inside of them has one. -/
def IsWellNamed (t : SchemaType) : Prop :=
  ∀ node ∈ t.nodes, node.kind.isWrapper = true ↔ node.name = none

instance (t : SchemaType) : Decidable t.IsWellNamed :=
  inferInstanceAs (Decidable (∀ node ∈ t.nodes, node.kind.isWrapper = true ↔ node.name = none))

/-- Whether a reference ends in a wrapper around nothing. -/
def IsOpen (t : SchemaType) : Prop :=
  ∃ node ∈ t.nodes, node.kind.isWrapper = true ∧ node.ofType = none

/-- How many lists surround the type that a reference ends in. -/
def lists (t : SchemaType) : Nat := t.nodes.countP fun node => node.kind == .list

section

variable {t inner : SchemaType}

theorem nodes_of_named (kind : t.kind.isWrapper = false) : t.nodes = [t] := by
  rcases t with ⟨k, _, _, _, _, _, _, ofType⟩
  cases ofType with
  | none => rfl
  | some inner => exact if_neg (Bool.eq_false_iff.mp kind)

theorem nodes_of_opened (nothing : t.ofType = none) : t.nodes = [t] := by
  rcases t with ⟨k, _, _, _, _, _, _, ofType⟩
  cases nothing
  rfl

theorem nodes_of_wrapped (kind : t.kind.isWrapper = true) (wraps : t.ofType = some inner) :
    t.nodes = t :: inner.nodes := by
  rcases t with ⟨k, _, _, _, _, _, _, ofType⟩
  cases wraps
  exact if_pos kind

theorem isWellNamed_wrapped (kind : t.kind.isWrapper = true) (wraps : t.ofType = some inner) :
    t.IsWellNamed ↔ t.name = none ∧ inner.IsWellNamed := by
  simp [IsWellNamed, nodes_of_wrapped kind wraps, kind]

theorem isOpen_wrapped (kind : t.kind.isWrapper = true) (wraps : t.ofType = some inner) :
    t.IsOpen ↔ inner.IsOpen := by
  simp [IsOpen, nodes_of_wrapped kind wraps, wraps]

theorem not_isOpen_named (kind : t.kind.isWrapper = false) : ¬t.IsOpen := by
  simp [IsOpen, nodes_of_named kind, kind]

theorem isOpen_opened (kind : t.kind.isWrapper = true) (nothing : t.ofType = none) : t.IsOpen :=
  ⟨t, by rw [nodes_of_opened nothing]; exact List.mem_singleton_self t, kind, nothing⟩

end

/-! ## Where unwrapping fails -/

theorem resolve_opened (options : Options) (type field : Option String) (t : SchemaType)
    (kind : t.kind.isWrapper = true) (nothing : t.ofType = none) :
    t.resolve options type field = .error (.openWrapper t.kind) := by
  rcases t with ⟨k, _, _, _, _, _, _, ofType⟩
  cases nothing
  rcases (isWrapper_iff k).mp kind with rfl | rfl <;> rfl

theorem namedType_opened (t : SchemaType) (nameless : t.name = none) (nothing : t.ofType = none) :
    t.namedType = .error (.neverNamed t.kind) := by
  rcases t with ⟨_, name, _, _, _, _, _, ofType⟩
  cases nameless
  cases nothing
  rfl

/-- Naming a type fails for what the type is and never for what it is wrapped in. -/
theorem typeName_not_incomplete (options : Options) (type field : Option String) (t : SchemaType)
    (e : ResolutionError) (failed : options.typeName t type field = .error e) :
    ¬e.IsIncomplete := by
  cases e with
  | unknownScalar | unsupportedKind => exact id
  | openWrapper | neverNamed =>
    unfold Options.typeName at failed
    grind

/-- Resolution finds a reference incomplete exactly if it ends in a wrapper around nothing. -/
theorem resolve_incomplete_iff (options : Options) (type field : Option String) (t : SchemaType) :
    (∃ e, t.resolve options type field = .error e ∧ e.IsIncomplete) ↔ t.IsOpen := by
  induction t using unwrapping with
  | named t kind =>
    refine iff_of_false ?_ (not_isOpen_named kind)
    rintro ⟨e, failed, incomplete⟩
    rw [resolve_named options type field t kind, Outcome.map_error_iff] at failed
    exact typeName_not_incomplete options type field t e failed incomplete
  | opened t kind nothing =>
    refine iff_of_true ?_ (isOpen_opened kind nothing)
    exact ⟨_, resolve_opened options type field t kind nothing, trivial⟩
  | wrapped t inner kind wraps ih =>
    rw [isOpen_wrapped kind wraps, ← ih]
    rcases (isWrapper_iff t.kind).mp kind with nonNull | list
    · rw [resolve_nonNull options type field t inner nonNull wraps]
    · rw [resolve_list options type field t inner list wraps]
      simp only [Outcome.map_error_iff]

/-- A well-named reference reaches a type with a name unless it ends in a wrapper around nothing. -/
theorem IsWellNamed.isComplete {t : SchemaType} (wellNamed : t.IsWellNamed) (closed : ¬t.IsOpen) :
    t.IsComplete := by
  induction t using unwrapping with
  | named t kind =>
    have given : t.name ≠ none := by
      rw [ne_eq, ← wellNamed t (by simp [nodes_of_named kind]), kind]
      exact Bool.false_ne_true
    obtain ⟨name, named⟩ := Option.ne_none_iff_exists'.mp given
    exact .named kind named
  | opened t kind nothing => exact absurd (isOpen_opened kind nothing) closed
  | wrapped t inner kind wraps ih =>
    obtain ⟨nameless, below⟩ := (isWellNamed_wrapped kind wraps).mp wellNamed
    rw [isOpen_wrapped kind wraps] at closed
    exact .wrapped kind nameless wraps (ih below closed)

theorem IsWellNamed.namedType_of_isOpen {t : SchemaType} (wellNamed : t.IsWellNamed)
    (isOpen : t.IsOpen) : ∃ e, t.namedType = .error e ∧ e.IsIncomplete := by
  induction t using unwrapping with
  | named t kind => exact absurd isOpen (not_isOpen_named kind)
  | opened t kind nothing =>
    have nameless := (wellNamed t (by simp [nodes_of_opened nothing])).mp kind
    exact ⟨_, t.namedType_opened nameless nothing, by trivial⟩
  | wrapped t inner kind wraps ih =>
    obtain ⟨nameless, below⟩ := (isWellNamed_wrapped kind wraps).mp wellNamed
    rw [t.namedType_of_wrapper inner kind nameless wraps]
    exact ih below ((isOpen_wrapped kind wraps).mp isOpen)

/-- The search for the named type finds a well-named reference incomplete exactly if it ends in a
wrapper around nothing. -/
theorem namedType_incomplete_iff (t : SchemaType) (wellNamed : t.IsWellNamed) :
    (∃ e, t.namedType = .error e ∧ e.IsIncomplete) ↔ t.IsOpen := by
  refine ⟨?_, wellNamed.namedType_of_isOpen⟩
  rintro ⟨e, failed, _⟩
  by_contra closed
  obtain ⟨bottom, _, reaches, _⟩ := (wellNamed.isComplete closed).resolves
  cases reaches.symm.trans failed

/-! ## What is left of the wrappers -/

/-- A reference resolves to as many lists as it has. -/
theorem listDepth_resolve (options : Options) (type field : Option String) (t : SchemaType)
    (resolved : FieldType) (given : t.resolve options type field = .ok resolved) :
    resolved.listDepth = t.lists := by
  induction t using unwrapping generalizing resolved with
  | named t kind =>
    rw [resolve_named options type field t kind, Outcome.map_ok_iff] at given
    obtain ⟨name, _, rfl⟩ := given
    have noList : (t.kind == .list) = false := by
      cases k : t.kind <;> simp_all [TypeKind.isWrapper]
    simp [FieldType.listDepth, lists, nodes_of_named kind, noList]
  | opened t kind nothing =>
    rw [resolve_opened options type field t kind nothing] at given
    cases given
  | wrapped t inner kind wraps ih =>
    rw [lists, nodes_of_wrapped kind wraps, List.countP_cons]
    rcases (isWrapper_iff t.kind).mp kind with nonNull | list
    · rw [resolve_nonNull options type field t inner nonNull wraps] at given
      rw [nonNull]
      exact ih resolved given
    · rw [resolve_list options type field t inner list wraps, Outcome.map_ok_iff] at given
      obtain ⟨below, inside, rfl⟩ := given
      rw [list, FieldType.listDepth, ih below inside]
      rfl

/-- Whatever a reference resolves to may be null at every level, marked or not. -/
theorem isNullable_resolve (options : Options) (type field : Option String) (t : SchemaType)
    (resolved : FieldType) (given : t.resolve options type field = .ok resolved) :
    resolved.isNullable = true := by
  induction t using unwrapping generalizing resolved with
  | named t kind =>
    rw [resolve_named options type field t kind, Outcome.map_ok_iff] at given
    obtain ⟨name, _, rfl⟩ := given
    rfl
  | opened t kind nothing =>
    rw [resolve_opened options type field t kind nothing] at given
    cases given
  | wrapped t inner kind wraps ih =>
    rcases (isWrapper_iff t.kind).mp kind with nonNull | list
    · rw [resolve_nonNull options type field t inner nonNull wraps] at given
      exact ih resolved given
    · rw [resolve_list options type field t inner list wraps, Outcome.map_ok_iff] at given
      obtain ⟨below, inside, rfl⟩ := given
      rw [FieldType.isNullable, ih below inside, Bool.and_self]

/-- A complete reference resolves to the type that it reaches, by the name that this has in the
field, inside of its lists. -/
theorem IsComplete.resolve_eq {t : SchemaType} (complete : t.IsComplete) :
    ∃ bottom, t.namedType = .ok bottom ∧ ∀ options type field, t.resolve options type field =
      (Options.typeName options bottom type field).map fun name =>
        FieldType.list^[t.lists] (.named name bottom.kind) := by
  obtain ⟨bottom, depth, reaches, _, _, resolves⟩ := complete.resolves
  refine ⟨bottom, reaches, fun options type field => ?_⟩
  rw [resolves]
  cases named : Options.typeName options bottom type field with
  | error e => rfl
  | ok name =>
    have given : t.resolve options type field =
        .ok (FieldType.list^[depth] (.named name bottom.kind)) := by
      rw [resolves, named]
      rfl
    have same := listDepth_resolve options type field t _ given
    rw [FieldType.listDepth_iterate, FieldType.listDepth, Nat.zero_add] at same
    rw [same]

/-- Whether the second reference is the first one with one more non-null wrapper, around a node of
it. -/
inductive InsertsMark : SchemaType → SchemaType → Prop
  | here {t mark : SchemaType} (kind : mark.kind = .nonNull) (nameless : mark.name = none)
      (wraps : mark.ofType = some t) : InsertsMark t mark
  | inside {t inner marked : SchemaType} (kind : t.kind.isWrapper = true) (nameless : t.name = none)
      (wraps : t.ofType = some inner) (below : InsertsMark inner marked) :
      InsertsMark t { t with ofType := some marked }

/-- A non-null wrapper makes no difference to either way of unwrapping. -/
theorem InsertsMark.same {t u : SchemaType} (inserts : InsertsMark t u) (options : Options)
    (type field : Option String) :
    u.resolve options type field = t.resolve options type field ∧ u.namedType = t.namedType := by
  induction inserts with
  | @here t mark kind nameless wraps =>
    refine ⟨resolve_nonNull options type field mark t kind wraps, ?_⟩
    exact mark.namedType_of_wrapper t ((isWrapper_iff _).mpr (.inl kind)) nameless wraps
  | @inside t inner marked kind nameless wraps below ih =>
    obtain ⟨resolves, reaches⟩ := ih
    constructor
    · rcases (isWrapper_iff t.kind).mp kind with nonNull | list
      · rw [resolve_nonNull options type field t inner nonNull wraps, ← resolves]
        exact resolve_nonNull options type field _ marked nonNull rfl
      · rw [resolve_list options type field t inner list wraps, ← resolves]
        exact resolve_list options type field _ marked list rfl
    · rw [t.namedType_of_wrapper inner kind nameless wraps, ← reaches]
      exact namedType_of_wrapper _ marked kind nameless rfl

/-- Whether two references differ by non-null wrappers that were inserted or removed, one by one. -/
def SameUpToMarks : SchemaType → SchemaType → Prop := Relation.EqvGen InsertsMark

theorem SameUpToMarks.same {t u : SchemaType} (alike : t.SameUpToMarks u) (options : Options)
    (type field : Option String) :
    u.resolve options type field = t.resolve options type field ∧ u.namedType = t.namedType := by
  induction alike with
  | rel t u inserts => exact inserts.same options type field
  | refl t => exact ⟨rfl, rfl⟩
  | symm t u _ ih => exact ⟨ih.1.symm, ih.2.symm⟩
  | trans t u v _ _ first second => exact ⟨second.1.trans first.1, second.2.trans first.2⟩

end SchemaType

/-- **The two unwrappers agree.** Of a reference whose wrappers have no name and whose other node
has one, resolution and the search for its named type find it incomplete in the same case: it ends
in a wrapper around nothing. Otherwise the search ends in a type, and resolution names this type in
the field, and fails only if it has no name there. What it resolves to has as many lists as the
reference, says of each of its levels that it may be null, is annotated so, and has the kind of that
type and its name at its bottom. Non-null wrappers that are inserted or removed make no difference
to either. -/
theorem unwrappers_agree (options : Options) (type field : Option String) (t : SchemaType)
    (wellNamed : t.IsWellNamed) :
    ((∃ e, t.resolve options type field = .error e ∧ e.IsIncomplete) ↔
        ∃ e, t.namedType = .error e ∧ e.IsIncomplete) ∧
      ((∃ e, t.namedType = .error e ∧ e.IsIncomplete) ↔ t.IsOpen) ∧
      (¬t.IsOpen → ∃ bottom, t.namedType = .ok bottom ∧
        (∀ e, t.resolve options type field = .error e ↔
          options.typeName bottom type field = .error e) ∧
        ∀ resolved, t.resolve options type field = .ok resolved →
          resolved.listDepth = t.lists ∧ resolved.isNullable = true ∧
          (∀ reference, (Source.nullableType reference resolved).nullableDepth? = some t.lists) ∧
          ∃ name, options.typeName bottom type field = .ok name ∧
            resolved.terminal = .named name bottom.kind) ∧
      ∀ u, t.SameUpToMarks u →
        u.resolve options type field = t.resolve options type field ∧ u.namedType = t.namedType := by
  have searched := t.namedType_incomplete_iff wellNamed
  refine ⟨(t.resolve_incomplete_iff options type field).trans searched.symm, searched, ?_,
    fun u alike => alike.same options type field⟩
  intro closed
  obtain ⟨bottom, reaches, resolves⟩ := (wellNamed.isComplete closed).resolve_eq
  refine ⟨bottom, reaches, fun e => ?_, fun resolved given => ?_⟩
  · rw [resolves, Outcome.map_error_iff]
  · have depth := t.listDepth_resolve options type field resolved given
    have nullable := t.isNullable_resolve options type field resolved given
    rw [resolves, Outcome.map_ok_iff] at given
    obtain ⟨name, named, rfl⟩ := given
    refine ⟨depth, nullable, fun reference => ?_, name, named, FieldType.terminal_iterate _ _⟩
    rw [Source.nullableDepth?_nullableType, depth]

/-! ## A list of lists -/

/-- A list of lists of texts, none of which is ever null. -/
def tagsType : SchemaType where
  kind := .nonNull
  ofType := some {
    kind := .list
    ofType := some {
      kind := .nonNull
      ofType := some {
        kind := .list
        ofType := some { kind := .nonNull, ofType := some { kind := .scalar, name := some "String" } } } } }

/-- Options that override the tags of an order. -/
def orderOptions : Options :=
  { moduleName := "orders", overrides := [(("Order", "tags"), "bytes")] }

/-- The tags of an order are two lists deep, with the override at the bottom, and may be null
throughout. -/
theorem unwrappers_agree_tags : tagsType.IsWellNamed ∧ ¬tagsType.IsOpen ∧
    ∃ bottom resolved, tagsType.namedType = .ok bottom ∧
      tagsType.resolve orderOptions (some "Order") (some "tags") = .ok resolved ∧
      resolved.listDepth = 2 ∧ resolved.isNullable = true ∧
      resolved.terminal = .named (some "bytes") bottom.kind ∧
      ({ kind := .nonNull, ofType := some tagsType : SchemaType }).resolve orderOptions
        (some "Order") (some "tags") = .ok resolved := by
  have wellNamed : tagsType.IsWellNamed := by decide
  obtain ⟨_, incomplete, reaches, unmarked⟩ :=
    unwrappers_agree orderOptions (some "Order") (some "tags") tagsType wellNamed
  have closed : ¬tagsType.IsOpen := by
    rw [← incomplete]
    rintro ⟨e, failed, _⟩
    cases failed
  obtain ⟨bottom, found, _, each⟩ := reaches closed
  obtain ⟨depth, nullable, _, name, named, terminal⟩ := each _ rfl
  have again := (unmarked { kind := .nonNull, ofType := some tagsType }
    (.rel _ _ (.here rfl rfl rfl))).1
  cases found
  cases named
  exact ⟨wellNamed, closed, _, _, rfl, rfl, depth, nullable, terminal, again⟩

end GraphQLModels
