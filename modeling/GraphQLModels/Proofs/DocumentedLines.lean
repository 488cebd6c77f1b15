import GraphQLModels.Proofs.Comments
import GraphQLModels.Proofs.Lines
import GraphQLModels.Source.Printer

/-!
# Comments between the lines of a module

What is said about a field or a value of an enum is written on lines of comments, and the reason why
a field is deprecated is quoted within the line of its attribute too. Without them a module has the
same lines, in the same order, and no others.
-/

namespace GraphQLModels

/-! ## Quoted texts -/

namespace Text

theorem mem_toDigits (base n : Nat) (large : 1 < base) (c : Char)
    (member : c ∈ Nat.toDigits base n) : ∃ digit < base, c = Nat.digitChar digit := by
  induction n using Nat.strongRecOn with
  | ind n ih =>
    rw [Nat.toDigits_eq_if large] at member
    split at member
    · rename_i small
      exact ⟨n, small, List.mem_singleton.mp member⟩
    · rename_i below
      rcases List.mem_append.mp member with front | last
      · exact ih (n / base) (Nat.div_lt_self (by omega) large) front
      · exact ⟨n % base, Nat.mod_lt _ (by omega), List.mem_singleton.mp last⟩

theorem hexDigits_unbroken (width n : Nat) : ∀ c ∈ hexDigits width n, isLineBreak c = false := by
  have digits : ∀ digit < 16, isLineBreak (Nat.digitChar digit) = false := by decide
  intro c member
  rcases List.mem_append.mp member with zero | inside
  · rw [List.eq_of_mem_replicate zero]
    rfl
  · obtain ⟨digit, small, rfl⟩ := mem_toDigits 16 n (by decide) c inside
    exact digits digit small

theorem isPrintable_unbroken (c : Char) (prints : isPrintable c = true) :
    isLineBreak c = false := by
  by_contra broken
  have breaks : c.toNat ∈ [10, 11, 12, 13, 28, 29, 30, 0x85, 0x2028, 0x2029] := by
    simp only [isLineBreak, Bool.not_eq_false, Bool.or_eq_true, Bool.and_eq_true,
      decide_eq_true_eq, beq_iff_eq] at broken
    simp only [List.mem_cons, List.not_mem_nil, or_false]
    omega
  have none : ∀ n ∈ [10, 11, 12, 13, 28, 29, 30, 0x85, 0x2028, 0x2029],
      (if n < 127 then decide (32 ≤ n) else !inRanges unprintableRanges n) = false := by
    decide +kernel
  rw [isPrintable, none _ breaks] at prints
  cases prints

theorem escapeChar_unbroken (quote c : Char) (unbroken : isLineBreak quote = false) :
    ∀ d ∈ escapeChar quote c, isLineBreak d = false := by
  have escaped : ∀ (letter : Char) (cs : List Char), isLineBreak letter = false →
      (∀ d ∈ cs, isLineBreak d = false) → ∀ d ∈ '\\' :: letter :: cs, isLineBreak d = false :=
    fun letter cs first rest =>
      List.forall_mem_cons.mpr ⟨rfl, List.forall_mem_cons.mpr ⟨first, rest⟩⟩
  have none : ∀ d ∈ ([] : List Char), isLineBreak d = false := by simp
  unfold escapeChar
  split
  · rename_i itself
    have either : c = quote ∨ c = '\\' := by simpa using itself
    rcases either with rfl | rfl
    · exact escaped c [] unbroken none
    · exact escaped '\\' [] rfl none
  split
  · exact escaped 't' [] rfl none
  split
  · exact escaped 'n' [] rfl none
  split
  · exact escaped 'r' [] rfl none
  split
  · rename_i prints
    simpa using isPrintable_unbroken c prints
  split
  · exact escaped 'x' _ rfl (hexDigits_unbroken 2 _)
  split
  · exact escaped 'u' _ rfl (hexDigits_unbroken 4 _)
  · exact escaped 'U' _ rfl (hexDigits_unbroken 8 _)

/-- A quoted text is on one line. -/
theorem quoted_unbroken (s : String) : ∀ c ∈ (quoted s).toList, isLineBreak c = false := by
  have quote : isLineBreak (quoteFor s.toList) = false := by
    unfold quoteFor
    split <;> rfl
  intro c member
  simp only [quoted, String.toList_ofList, List.mem_append, List.mem_cons, List.mem_flatMap,
    List.not_mem_nil, or_false] at member
  rcases member with (rfl | ⟨d, -, inside⟩) | rfl
  · exact quote
  · exact escapeChar_unbroken _ d quote c inside
  · exact quote

end Text

namespace Source

/-! ## Lines with comments between them -/

/-- Lines that are documented, and the same lines without what is said in them: between the lines
comments are put, and a line may quote why something is deprecated. -/
inductive Documents : List String → List String → Prop
  | nil : Documents [] []
  | same (line : String) {lines plain : List String} (rest : Documents lines plain) :
    Documents (line :: lines) (line :: plain)
  | comment (mark text : String) (known : mark = "" ∨ mark = "Deprecated: ")
    {lines plain : List String} (rest : Documents lines plain) :
    Documents (("    # " ++ mark ++ Text.comment text) :: lines) plain
  | reason (front text back : String) {lines plain : List String} (rest : Documents lines plain) :
    Documents ((front ++ "deprecated=" ++ Text.quoted text ++ back) :: lines)
      ((front ++ "deprecated=True" ++ back) :: plain)

namespace Documents

theorem refl (lines : List String) : Documents lines lines := by
  induction lines with
  | nil => exact .nil
  | cons line _ ih => exact .same line ih

theorem append {lines plain later plain' : List String} (first : Documents lines plain)
    (second : Documents later plain') : Documents (lines ++ later) (plain ++ plain') := by
  induction first with
  | nil => exact second
  | same line _ ih => exact .same line ih
  | comment mark text known _ ih => exact .comment mark text known ih
  | reason front text back _ ih => exact .reason front text back ih

end Documents

/-- Texts of whole lines, one of them documented. -/
structure Annotates (text plain : String) : Prop where
  whole : Text.IsWhole text
  plain_whole : Text.IsWhole plain
  documents : Documents (Text.lines text) (Text.lines plain)

namespace Annotates

theorem same {text : String} (whole : Text.IsWhole text) : Annotates text text :=
  ⟨whole, whole, .refl _⟩

theorem append {text plain text' plain' : String} (first : Annotates text plain)
    (second : Annotates text' plain') : Annotates (text ++ text') (plain ++ plain') := by
  refine ⟨first.whole.append second.whole, first.plain_whole.append second.plain_whole, ?_⟩
  rw [first.whole.lines_append, first.plain_whole.lines_append]
  exact first.documents.append second.documents

/-- A comment in front makes no other difference. -/
theorem after {comment text plain : String} (above : Annotates comment "")
    (annotates : Annotates text plain) : Annotates (comment ++ text) plain := by
  have both := above.append annotates
  rwa [String.empty_append] at both

theorem each {α β : Type} (items : List α) (bare : α → β) (text : α → String)
    (text' : β → String) (annotates : ∀ x ∈ items, Annotates (text x) (text' (bare x))) :
    Annotates (Source.each items text) (Source.each (items.map bare) text') := by
  induction items with
  | nil => exact same Text.isWhole_empty
  | cons x rest ih =>
    rw [List.forall_mem_cons] at annotates
    have both := annotates.1.append (ih annotates.2)
    simpa [Source.each] using both

end Annotates

theorem isWhole_each {α : Type} (items : List α) (text : α → String)
    (whole : ∀ x, Text.IsWhole (text x)) : Text.IsWhole (each items text) := by
  have annotates := Annotates.each items id text text fun x _ => .same (whole x)
  exact annotates.whole

/-! ## Comments -/

/-- A comment is one line. -/
theorem commentLine_annotates (mark text : String) (known : mark = "" ∨ mark = "Deprecated: ") :
    Annotates ("    # " ++ mark ++ Text.comment text ++ "\n") "" := by
  have front : ∀ c ∈ ("    # " ++ mark).toList, Text.isLineBreak c = false := by
    rcases known with rfl | rfl <;> exact Text.unbroken_of_none (by decide)
  have unbroken := Text.unbroken_append front (Text.comment_isCommentLine text).unbroken
  refine ⟨Text.isWhole_feed _, Text.isWhole_empty, ?_⟩
  rw [Text.lines_feed _ unbroken]
  exact .comment mark text known .nil

theorem commentText_annotates (description : Option String) :
    Annotates (commentText description) "" := by
  unfold commentText whenGiven
  cases givenName? description with
  | none => exact .same Text.isWhole_empty
  | some text => simpa using commentLine_annotates "" text (.inl rfl)

theorem deprecationText_annotates (reason : Option String) :
    Annotates (deprecationText reason) "" := by
  unfold deprecationText whenGiven
  cases givenName? reason with
  | none => exact .same Text.isWhole_empty
  | some text =>
    have marked : "    # " ++ "Deprecated: " = "    # Deprecated: " := by decide
    have line := commentLine_annotates "Deprecated: " text (.inr rfl)
    rwa [marked] at line

/-! ## Statements without their comments -/

/-- The member without what is said about it. -/
def Member.undocumented (m : Member) : Member := { m with description := none, deprecation := none }

/-- The attribute without what is said about it; that it is deprecated remains. -/
def Attribute.undocumented (a : Attribute) : Attribute :=
  { a with description := none, deprecation := a.deprecation.map fun _ => none }

def EnumClass.undocumented (e : EnumClass) : EnumClass :=
  { e with members := e.members.map Member.undocumented }

def ContractClass.undocumented (c : ContractClass) : ContractClass :=
  { c with attributes := c.attributes.map Attribute.undocumented }

def ObjectClass.undocumented (c : ObjectClass) : ObjectClass :=
  { c with attributes := c.attributes.map Attribute.undocumented }

/-- The module without what is said about its fields and the values of its enums. -/
def Module.undocumented (m : Module) : Module :=
  { m with
    enums := m.enums.map EnumClass.undocumented
    contracts := m.contracts.map ContractClass.undocumented
    objects := m.objects.map ObjectClass.undocumented }

@[simp] theorem commentText_none : commentText none = "" := rfl

@[simp] theorem deprecationText_none : deprecationText none = "" := rfl

theorem Member.text_annotates (m : Member) : Annotates m.text m.undocumented.text := by
  unfold Member.text Member.undocumented
  simp only [commentText_none, deprecationText_none, String.empty_append, String.append_assoc]
  refine (commentText_annotates m.description).after
    ((deprecationText_annotates m.deprecation).after (.same ?_))
  simp only [← String.append_assoc]
  exact Text.isWhole_feed _

theorem Member.constantText_annotates (m : Member) :
    Annotates m.constantText m.undocumented.constantText := by
  unfold Member.constantText Member.undocumented
  simp only [deprecationText_none, String.empty_append, String.append_assoc]
  refine (deprecationText_annotates m.deprecation).after (.same ?_)
  simp only [← String.append_assoc]
  exact Text.isWhole_feed _

/-! ## Reasons in a statement -/

/-- One of several texts stands between the others. -/
theorem intercalate_around (separator : String) (front back : List String) :
    ∃ before after, ∀ text, separator.intercalate (front ++ text :: back) =
      before ++ (text ++ after) := by
  induction front with
  | nil =>
    cases back with
    | nil => exact ⟨"", "", fun text => by simp⟩
    | cons next back =>
      exact ⟨"", separator ++ separator.intercalate (next :: back), fun text => by
        simp [String.intercalate_cons_cons, String.append_assoc]⟩
  | cons first front ih =>
    obtain ⟨before, after, same⟩ := ih
    refine ⟨first ++ separator ++ before, after, fun text => ?_⟩
    obtain ⟨next, rest, split⟩ := List.exists_cons_of_ne_nil
      (List.append_ne_nil_of_right_ne_nil front (List.cons_ne_nil text back))
    rw [List.cons_append, split, String.intercalate_cons_cons, ← split, same]
    simp only [String.append_assoc]

/-- A reason stands within one line of the text around it. -/
theorem reason_annotates (before after text : String) :
    Annotates (before ++ ("deprecated=" ++ Text.quoted text ++ after) ++ "\n")
      (before ++ ("deprecated=True" ++ after) ++ "\n") := by
  obtain ⟨earlier, front, back, later, around⟩ := Text.lines_around before (after ++ "\n")
  refine ⟨Text.isWhole_feed _, Text.isWhole_feed _, ?_⟩
  have mark : ∀ c ∈ "deprecated=".toList, Text.isLineBreak c = false :=
    Text.unbroken_of_none (by decide)
  have unbroken := Text.unbroken_append mark (Text.quoted_unbroken text)
  have lines := around ("deprecated=" ++ Text.quoted text) (by simp) unbroken
  have plain := around "deprecated=True" (by simp) (Text.unbroken_of_none (by decide))
  simp only [String.append_assoc] at lines plain ⊢
  rw [lines, plain]
  refine (Documents.refl earlier).append ?_
  simpa only [String.append_assoc] using Documents.reason front text back (.refl later)

/-- Where a reason is written, the options of an attribute around it do not tell what it is. -/
theorem Attribute.defaultText_around (a : Attribute) :
    ∃ before after, ∀ reason : Option String,
      ({ a with deprecation := some reason } : Attribute).defaultText =
        before ++ ("deprecated=" ++ (reason.map Text.quoted).getD "True" ++ after) := by
  obtain ⟨before, after, same⟩ := intercalate_around ", "
    (a.rename.map fun name => "alias=" ++ Text.quoted name).toList
    (if a.readOnly then ["frozen=True"] else [])
  refine ⟨"_Field(default=None, " ++ before, after ++ ")", fun reason => ?_⟩
  have options : ({ a with deprecation := some reason } : Attribute).options =
      (a.rename.map fun name => "alias=" ++ Text.quoted name).toList ++
        ("deprecated=" ++ (reason.map Text.quoted).getD "True") ::
          (if a.readOnly then ["frozen=True"] else []) := by
    simp [Attribute.options]
  rw [Attribute.defaultText, options, same]
  simp [String.append_assoc]

/-- The statement of an attribute tells why it is deprecated within one line. -/
theorem Attribute.statement_annotates (a : Attribute) (front : String) :
    Annotates (front ++ a.defaultText ++ "\n") (front ++ a.undocumented.defaultText ++ "\n") := by
  obtain ⟨before, after, around⟩ := a.defaultText_around
  obtain ⟨name, type, rename, deprecation, readOnly, description⟩ := a
  match deprecation with
  | none | some none => exact .same (Text.isWhole_feed _)
  | some (some text) =>
    -- The attribute about which nothing is said is deprecated too, so the same text is around.
    have plain : (undocumented
        ⟨name, type, rename, some (some text), readOnly, description⟩).defaultText =
          before ++ ("deprecated=True" ++ after) := around none
    have written : defaultText ⟨name, type, rename, some (some text), readOnly, description⟩ =
        before ++ ("deprecated=" ++ Text.quoted text ++ after) := around (some text)
    have line := reason_annotates (front ++ before) after text
    simpa only [plain, written, String.append_assoc] using line

theorem Attribute.text_annotates (a : Attribute) : Annotates a.text a.undocumented.text := by
  have statement := a.statement_annotates ("    " ++ a.name ++ ": " ++ a.type.text ++ " = ")
  have above := (commentText_annotates a.description).after statement
  simpa only [Attribute.text, Attribute.undocumented, commentText_none, String.empty_append,
    String.append_assoc] using above

/-! ## Classes and modules without comments -/

theorem isWhole_docstringText (description : Option String) :
    Text.IsWhole (docstringText description) := by
  unfold docstringText whenGiven
  cases givenName? description with
  | none => exact Text.isWhole_empty
  | some text => exact Text.isWhole_append _ "\"\"\"\n\n" (by decide)

theorem EnumClass.companionText_annotates (e : EnumClass) :
    Annotates e.companionText e.undocumented.companionText := by
  unfold companionText undocumented
  dsimp only
  split
  · exact (Annotates.same (Text.isWhole_append _ ".\"\"\"\n\n" (by decide))).append
      (.each e.members Member.undocumented _ _ fun m _ => m.constantText_annotates)
  · exact .same Text.isWhole_empty

theorem EnumClass.text_annotates (e : EnumClass) : Annotates e.text e.undocumented.text := by
  have head : Text.IsWhole ("\n\nclass " ++ nameText e.name ++ "(str, _Enum):\n") :=
    Text.isWhole_append _ "(str, _Enum):\n" (by decide)
  have members : Annotates (if e.members.isEmpty then "    pass\n" else each e.members Member.text)
      (if e.undocumented.members.isEmpty then "    pass\n"
        else each e.undocumented.members Member.text) := by
    have none : e.undocumented.members.isEmpty = e.members.isEmpty := List.isEmpty_map
    rw [none]
    split
    · exact .same (Text.isWhole_of_ends "    pass\n" (by decide))
    · exact .each e.members Member.undocumented _ _ fun m _ => m.text_annotates
  exact ((Annotates.same (head.append (isWhole_docstringText e.description))).append members).append
    e.companionText_annotates

theorem Accessor.isWhole_text (a : Accessor) : Text.IsWhole a.text := by
  unfold text
  exact Text.isWhole_append _ ") else None\n" (by decide)

theorem attributes_annotate (attributes : List Attribute) :
    Annotates (each attributes Attribute.text)
      (each (attributes.map Attribute.undocumented) Attribute.text) :=
  .each attributes Attribute.undocumented _ _ fun a _ => a.text_annotates

theorem ContractClass.text_annotates (c : ContractClass) :
    Annotates c.text c.undocumented.text := by
  have head : Text.IsWhole ("\n\nclass " ++ c.name ++ "(" ++ basesText c.bases ++ "):\n") :=
    Text.isWhole_append _ "):\n" (by decide)
  have implementers : Text.IsWhole ("    graphql_implementers: _ClassVar[tuple[str, ...]] = (" ++
      each c.implementers (fun name => Text.quoted name ++ ", ") ++ ")\n") :=
    Text.isWhole_append _ ")\n" (by decide)
  have gap : Text.IsWhole (if c.attributes.isEmpty then "" else "\n") := by
    split
    · exact Text.isWhole_empty
    · exact Text.isWhole_of_ends "\n" rfl
  have front := (head.append (isWhole_docstringText c.description)).append
    (implementers.append gap)
  have whole := ((Annotates.same front).append (attributes_annotate c.attributes)).append
    (.same (isWhole_each c.accessors Accessor.text Accessor.isWhole_text))
  have gapless : c.undocumented.attributes.isEmpty = c.attributes.isEmpty := List.isEmpty_map
  unfold ContractClass.text
  rw [gapless]
  simp only [String.append_assoc] at whole ⊢
  exact whole

theorem ObjectClass.text_annotates (c : ObjectClass) : Annotates c.text c.undocumented.text := by
  have head : Text.IsWhole ("\n\nclass " ++ nameText c.name ++ "(" ++ basesText c.bases ++ "):\n") :=
    Text.isWhole_append _ "):\n" (by decide)
  have classVariables : Text.IsWhole (each c.classVariables fun v =>
      "    " ++ v.name ++ ": _ClassVar[str] = " ++ Text.quoted v.value ++ "\n") :=
    isWhole_each _ _ fun _ => Text.isWhole_feed _
  have mark : Text.IsWhole ("    " ++ typenameField ++ ": _Literal[" ++ quotedName c.schemaName ++
      "] = _Field(default=" ++ quotedName c.schemaName ++ ", alias=" ++ Text.quoted typenameAlias ++
      ")\n") :=
    Text.isWhole_append _ ")\n" (by decide)
  have front := (head.append (isWhole_docstringText c.description)).append
    (classVariables.append mark)
  have whole := (Annotates.same front).append (attributes_annotate c.attributes)
  unfold ObjectClass.text
  simp only [String.append_assoc] at whole ⊢
  exact whole

/-- A module without comments exports the same names. -/
theorem Module.exported_undocumented (m : Module) : m.undocumented.exported = m.exported := by
  have constants : (m.enums.map EnumClass.undocumented).filter (·.stringConstants) =
      (m.enums.filter (·.stringConstants)).map EnumClass.undocumented := List.filter_map
  simp only [exported, models, undocumented, constants, List.map_map]
  rfl

/-- What a module says about its fields and values stands in comments between its lines, and within
lines that it has without them. -/
theorem Module.text_annotates (m : Module) (header : String) :
    Annotates (header ++ m.text) (header ++ m.undocumented.text) := by
  have head : m.undocumented.headText = m.headText := by
    unfold headText
    rw [exported_undocumented]
    rfl
  have rebuilt : m.undocumented.rebuildText = m.rebuildText := by
    have models : m.undocumented.models = m.models := by
      simp only [models, undocumented, List.map_map]
      rfl
    rw [rebuildText, rebuildText, models]
  have headWhole : Text.IsWhole (header ++ m.headText) := by
    unfold headText
    rw [← String.append_assoc]
    exact Text.isWhole_append _ "]\n" (by decide)
  have aliases : Text.IsWhole m.aliasesText := by
    unfold aliasesText
    split
    · exact Text.isWhole_empty
    · exact (Text.isWhole_of_ends "\n\n" rfl).append
        (isWhole_each _ _ fun _ => Text.isWhole_feed _)
  have rebuild : Text.IsWhole m.rebuildText := by
    unfold rebuildText
    split
    · exact Text.isWhole_empty
    · exact Text.isWhole_append _ "):\n    _model.model_rebuild()\n" (by decide)
  -- Only the classes say something; all pieces end with their lines, so they are put together.
  have whole := (((((Annotates.same headWhole).append
    (.each m.enums EnumClass.undocumented _ _ fun e _ => e.text_annotates)).append
    (.each m.contracts ContractClass.undocumented _ _ fun c _ => c.text_annotates)).append
    (.each m.objects ObjectClass.undocumented _ _ fun c _ => c.text_annotates)).append
    (.same aliases)).append (.same rebuild)
  have aliased : m.undocumented.aliasesText = m.aliasesText := rfl
  rw [Module.text, Module.text, head, rebuilt, aliased]
  simp only [String.append_assoc] at whole ⊢
  exact whole

end Source

end GraphQLModels
