import GraphQLModels.Proofs.Characters
import GraphQLModels.Proofs.Docstrings
import GraphQLModels.Source.Printer
import GraphQLModels.Source.Statement

/-!
# Descriptions in the source

The docstring of a class is one token of the source, whatever the description says, unless quotes of
the description join the closing ones. So a description makes no difference to whether a source is
well formed.
-/

namespace GraphQLModels.Source

open Text (LeavesOpen StaysOpen afterClosing joiningQuotes)

namespace Lexer

theorem run_append (s : State) (cs rest : List Char) :
    run s (cs ++ rest) = (run s cs).bind fun s => run s rest := by
  induction cs generalizing s with
  | nil => rfl
  | cons c cs ih =>
    rw [List.cons_append, run, run]
    cases step s c with
    | none => rfl
    | some next => exact ih next

/-- Escapes of backslashes and quotes are complete. -/
theorem escapesHold_of_leavesOpen {quotes last : Nat} {body : List Char}
    (leaves : LeavesOpen quotes body last) : escapesHold false body = true := by
  induction leaves with
  | nil => rfl
  | @quote _ _ rest few _ ih => simpa [escapesHold] using ih
  | @escape c _ _ rest escaped _ ih => rcases escaped with rfl | rfl <;> simpa [escapesHold] using ih
  | @other c _ _ rest noQuote noBackslash _ ih => simpa [escapesHold, noBackslash] using ih

/-- Inside a literal of three quotes, a text that leaves it open is read to its end. -/
theorem run_staysOpen {quotes last : Nat} {body : List Char} (stays : StaysOpen quotes body last)
    (s : State) (start : LiteralStart) (seen : List Char)
    (inside : s.mode = .literal start '"' true seen quotes false) :
    run s body = some (s.enter (.literal start '"' true (body.reverse ++ seen) last false)) := by
  induction stays generalizing s seen with
  | nil quotes =>
    rw [run, List.reverse_nil, List.nil_append, ← inside]
    rfl
  | @quote quotes _ rest few _ ih =>
    have next : step s '"' =
        some (s.enter (.literal start '"' true ('"' :: seen) (quotes + 1) false)) := by
      have notThird : quotes ≠ 2 := by omega
      simp [step, inside, stepLiteral, notThird]
    rw [run, next, Option.bind_some, ih _ ('"' :: seen) rfl, List.reverse_cons, List.append_assoc]
    rfl
  | @escape c quotes _ rest _ ih =>
    have next : run s ['\\', c] =
        some (s.enter (.literal start '"' true (c :: '\\' :: seen) 0 false)) := by
      simp [run, step, inside, stepLiteral, State.enter]
    rw [show '\\' :: c :: rest = ['\\', c] ++ rest from rfl, run_append, next, Option.bind_some,
      ih _ (c :: '\\' :: seen) rfl]
    simp [State.enter]
  | @other c quotes _ rest noQuote noBackslash _ ih =>
    have next : step s c = some (s.enter (.literal start '"' true (c :: seen) 0 false)) := by
      simp [step, inside, stepLiteral, noQuote, beq_false_of_ne noBackslash]
    rw [run, next, Option.bind_some, ih _ (c :: seen) rfl, List.reverse_cons, List.append_assoc]
    rfl

/-- A literal that its body leaves open becomes one token if the escapes in it are complete. -/
theorem run_literal (s : State) (inside : s.mode = .literal ⟨.plain, false⟩ '"' true [] 0 false)
    (body : List Char) (stays : StaysOpen 0 body 0) :
    run s (body ++ ['"', '"', '"']) =
      if escapesHold false body then some (s.emit (.literal ⟨.plain, false⟩ [])) else none := by
  rw [run_append, run_staysOpen stays s _ [] inside, Option.bind_some, List.append_nil]
  have closed : run (s.enter (.literal ⟨.plain, false⟩ '"' true body.reverse 0 false))
      ['"', '"', '"'] = (endLiteral (s.enter (.literal ⟨.plain, false⟩ '"' true
        ('"' :: '"' :: body.reverse) 2 false)) ⟨.plain, false⟩ body.reverse.reverse).bind some := rfl
  rw [closed, List.reverse_reverse, Option.bind_fun_some]
  simp [endLiteral, literalHolds, State.enter, State.emit]

/-- A literal is one token behind what opens it, and the token does not tell what the literal holds. -/
theorem run_opened (s : State) (opening body : List Char)
    (opens : ∀ t, run s opening = some t → t.mode = .literal ⟨.plain, false⟩ '"' true [] 0 false)
    (stays : StaysOpen 0 body 0) :
    run s (opening ++ (body ++ ['"', '"', '"'])) = (run s opening).bind fun s =>
      if escapesHold false body then some (s.emit (.literal ⟨.plain, false⟩ [])) else none := by
  rw [run_append]
  cases opened : run s opening with
  | none => rfl
  | some t => exact run_literal t (opens t opened) body stays

theorem endLiteral_mode (s s' : State) (start : LiteralStart) (body : List Char)
    (given : endLiteral s start body = some s') : s'.mode = .ready false := by
  unfold endLiteral at given
  split at given
  · cases given
    rfl
  · cases given

/-- A single quote behind a literal opens one that the line does not end. -/
theorem run_stray (s : State) (continued : Bool) (ready : s.mode = .ready continued) :
    run s ['"', '\n'] = none := by
  have opened : step s '"' = some (s.enter (.opening ⟨.plain, false⟩ '"' false)) := by
    rw [step, ready]
    rfl
  rw [run, opened]
  rfl

/-- Behind a literal that is closed one quote too early, the last closing quote opens another one,
and the line ends inside it. -/
theorem run_docstring_early (s : State)
    (inside : s.mode = .literal ⟨.plain, false⟩ '"' true [] 0 false) (body : List Char)
    (leaves : LeavesOpen 0 body 1) : run s (body ++ ['"', '"', '"', '\n']) = none := by
  rw [run_append, run_staysOpen leaves.staysOpen s _ [] inside, Option.bind_some, List.append_nil]
  generalize closed : s.enter (.literal ⟨.plain, false⟩ '"' true ('"' :: body.reverse) 2 false) = t
  have first : step (s.enter (.literal ⟨.plain, false⟩ '"' true body.reverse 1 false)) '"' =
      some t := closed ▸ rfl
  have second : step t '"' = endLiteral t ⟨.plain, false⟩ (body.reverse.drop 1).reverse :=
    closed ▸ rfl
  rw [run, first, Option.bind_some, run, second]
  cases ended : endLiteral t ⟨.plain, false⟩ (body.reverse.drop 1).reverse with
  | none => rfl
  | some u => exact run_stray u false (endLiteral_mode t u _ _ ended)

/-- A quote at the front of a line opens something. -/
theorem stepLineStart_quote (s s' : State) (column strict : Nat) (kept : Option Nat)
    (given : stepLineStart s column strict kept '"' = some s') :
    ∃ t : State, s' = t.enter (.opening ⟨.plain, false⟩ '"' false) := by
  have dispatched : stepLineStart s column strict kept '"' = if s.brackets.isEmpty then
      (indentTo s (keptColumn kept column) (keptColumn kept strict)).bind fun s => stepReady s '"'
      else stepReady s '"' := rfl
  rw [dispatched] at given
  split at given
  · obtain ⟨t, -, given⟩ := Option.bind_eq_some_iff.mp given
    exact ⟨t, (Option.some.inj given).symm⟩
  · exact ⟨s, (Option.some.inj given).symm⟩

/-- Three quotes at the front of a line open a literal. -/
theorem run_quotes (s s' : State) (column strict : Nat) (kept : Option Nat)
    (front : s.mode = .lineStart column strict kept) (given : run s ['"', '"', '"'] = some s') :
    s'.mode = .literal ⟨.plain, false⟩ '"' true [] 0 false := by
  rw [run, step, front] at given
  obtain ⟨t, first, given⟩ := Option.bind_eq_some_iff.mp given
  obtain ⟨u, rfl⟩ := stepLineStart_quote _ t _ _ _ first
  cases given
  rfl

/-- So do those behind the margin of a line. -/
theorem run_opening (s s' : State) (column strict : Nat) (kept : Option Nat)
    (front : s.mode = .lineStart column strict kept)
    (given : run s (Text.margin ++ ['"', '"', '"']) = some s') :
    s'.mode = .literal ⟨.plain, false⟩ '"' true [] 0 false := by
  have margin : run s Text.margin =
      some (s.enter (.lineStart (column + 4) (strict + 4) kept)) := by
    simp [Text.margin, run, step, front, stepLineStart, State.enter]
  rw [run_append, margin, Option.bind_some] at given
  exact run_quotes _ s' _ _ _ rfl given

/-- A docstring is read as its opening quotes and one token, whatever it says. -/
theorem run_described (s : State) (column strict : Nat) (kept : Option Nat)
    (front : s.mode = .lineStart column strict kept) (body : List Char)
    (leaves : LeavesOpen 0 body 0) :
    run s (Text.margin ++ ['"', '"', '"'] ++ (body ++ ['"', '"', '"', '\n', '\n'])) =
      (run s (Text.margin ++ ['"', '"', '"'])).bind fun s =>
        run (s.emit (.literal ⟨.plain, false⟩ [])) ['\n', '\n'] := by
  have opens := fun t => run_opening s t column strict kept front
  rw [show ['"', '"', '"', '\n', '\n'] = ['"', '"', '"'] ++ ['\n', '\n'] from rfl,
    ← List.append_assoc body, ← List.append_assoc (Text.margin ++ _), run_append,
    run_opened s _ body opens leaves.staysOpen, escapesHold_of_leavesOpen leaves]
  simp only [if_true, Option.bind_assoc, Option.bind_some]

/-- A docstring whose closing quotes one quote joins is not read to its end. -/
theorem run_described_early (s : State) (column strict : Nat) (kept : Option Nat)
    (front : s.mode = .lineStart column strict kept) (body : List Char)
    (leaves : LeavesOpen 0 body 1) :
    run s (Text.margin ++ ['"', '"', '"'] ++ (body ++ ['"', '"', '"', '\n', '\n'])) = none := by
  rw [run_append]
  cases opened : run s (Text.margin ++ ['"', '"', '"']) with
  | none => rfl
  | some t =>
    have inside := run_opening s t column strict kept front opened
    rw [Option.bind_some,
      show ['"', '"', '"', '\n', '\n'] = ['"', '"', '"', '\n'] ++ ['\n'] from rfl,
      ← List.append_assoc, run_append, run_docstring_early t inside body leaves, Option.bind_none]

end Lexer

/-! ## The text around a docstring -/

theorem unifyBreaks_cons (c : Char) (rest : List Char) (noReturn : c ≠ '\r') :
    unifyBreaks (c :: rest) = c :: unifyBreaks rest := by
  rw [unifyBreaks]
  · exact fun _ return' => absurd return' noReturn
  · exact fun return' => absurd return' noReturn

/-- Breaks are unified on both sides of a character that has no part in one. -/
theorem unifyBreaks_append_cons (before rest : List Char) (c : Char) (noFeed : c ≠ '\n')
    (noReturn : c ≠ '\r') :
    unifyBreaks (before ++ c :: rest) = unifyBreaks before ++ c :: unifyBreaks rest := by
  fun_induction unifyBreaks before with
  | case1 before ih => simpa [unifyBreaks] using ih
  | case2 before alone ih =>
    rw [List.cons_append, unifyBreaks, ih]
    · rfl
    · rintro others same
      rcases before with _ | ⟨d, before⟩
      · exact noFeed (List.cons.inj same).1
      · exact alone before (by rw [(List.cons.inj same).1])
  | case3 d before _ other ih =>
    rw [List.cons_append, unifyBreaks_cons d _ other, ih]
    rfl
  | case4 => exact unifyBreaks_cons c rest noReturn

/-- A text without carriage returns has no breaks to unify. -/
theorem unifyBreaks_append (cs rest : List Char) (noReturn : '\r' ∉ cs) :
    unifyBreaks (cs ++ rest) = cs ++ unifyBreaks rest := by
  induction cs with
  | nil => rfl
  | cons c cs ih =>
    rw [List.mem_cons, not_or] at noReturn
    rw [List.cons_append, unifyBreaks_cons c _ (Ne.symm noReturn.1), ih noReturn.2]
    rfl

/-- What follows a line feed, with its last line ended if there is one. -/
def endedTail (cs : List Char) : List Char :=
  if cs.isEmpty || cs.getLast? == some '\n' then cs else cs ++ ['\n']

/-- Around a text that begins within a line and ends its last line, breaks are unified apart. -/
theorem normalise_around (before text after : String) (first : Char) (inner : List Char)
    (front : text.toList = first :: inner) (noFeed : first ≠ '\n')
    (ends : text.toList.getLast? = some '\n') (noReturn : '\r' ∉ text.toList) :
    normalise (before ++ text ++ after) =
      unifyBreaks before.toList ++ (text.toList ++ endedTail (unifyBreaks after.toList)) := by
  have unified : unifyBreaks (before ++ text ++ after).toList =
      unifyBreaks before.toList ++ (text.toList ++ unifyBreaks after.toList) := by
    rw [front, List.mem_cons, not_or] at noReturn
    rw [String.toList_append, String.toList_append, List.append_assoc, front, List.cons_append,
      unifyBreaks_append_cons _ _ first noFeed (Ne.symm noReturn.1),
      unifyBreaks_append inner _ noReturn.2, List.cons_append]
  rw [normalise, unified]
  generalize unifyBreaks after.toList = tail
  rcases List.eq_nil_or_concat tail with rfl | ⟨behind, c, rfl⟩
  · simp [endedTail, List.getLast?_append, ends]
  · by_cases feed : c = '\n'
    · simp [endedTail, List.getLast?_append, feed]
    · simp [endedTail, List.getLast?_append, feed]

/-- Such a text is read between what stands before it and what stands behind it. -/
theorem tokens?_around (before text after : String) (first : Char) (inner : List Char)
    (front : text.toList = first :: inner) (noFeed : first ≠ '\n')
    (ends : text.toList.getLast? = some '\n') (noReturn : '\r' ∉ text.toList) :
    tokens? (before ++ text ++ after) =
      if before.contains '\x00' || text.contains '\x00' || after.contains '\x00' then none
      else (Lexer.run {} (unifyBreaks before.toList)).bind fun s =>
        (Lexer.run s text.toList).bind fun s =>
          (Lexer.run s (endedTail (unifyBreaks after.toList))).bind Lexer.finish := by
  rw [tokens?, normalise_around before text after first inner front noFeed ends noReturn]
  simp [Lexer.run_append, Option.bind_assoc, or_assoc]

/-! ## A docstring -/

theorem docstringText_given (description : String) (given : description ≠ "") :
    docstringText (some description) =
      "    \"\"\"" ++ Text.indent (Text.docstring description) ++ "\"\"\"\n\n" := by
  have notEmpty : description.isEmpty = false := by simpa using given
  simp [docstringText, whenGiven, givenName?, Option.filter, notEmpty]

theorem docstringText_toList (description : String) (given : description ≠ "") :
    (docstringText (some description)).toList = Text.margin ++ ['"', '"', '"'] ++
      ((Text.indent (Text.docstring description)).toList ++ ['"', '"', '"', '\n', '\n']) := by
  rw [docstringText_given description given, String.toList_append, String.toList_append,
    List.append_assoc]
  rfl

/-- Whether what stands in front of a text ends outside of literals, at the front of a line. -/
def EndsLine (before : String) : Prop :=
  ∀ s, Lexer.run {} (unifyBreaks before.toList) = some s →
    ∃ column strict kept, s.mode = .lineStart column strict kept

/-- The tokens of a source with a docstring. -/
theorem tokens?_docstring (before after description : String) (given : description ≠ "") :
    tokens? (before ++ docstringText (some description) ++ after) =
      if before.contains '\x00' || (docstringText (some description)).contains '\x00' ||
        after.contains '\x00' then none
      else (Lexer.run {} (unifyBreaks before.toList)).bind fun s =>
        (Lexer.run s (docstringText (some description)).toList).bind fun s =>
          (Lexer.run s (endedTail (unifyBreaks after.toList))).bind Lexer.finish := by
  have whole := docstringText_toList description given
  have ends : (docstringText (some description)).toList.getLast? = some '\n' := by
    rw [whole]
    generalize (Text.indent (Text.docstring description)).toList = body
    simp [List.getLast?_append, List.getLast?_cons]
  have noReturn : '\r' ∉ (docstringText (some description)).toList := by
    have inside := Text.indented_ne_return false (Text.docstring description).toList
    rw [← Text.indent_toList] at inside
    rw [whole]
    generalize (Text.indent (Text.docstring description)).toList = body at inside
    simpa [Text.margin] using inside
  exact tokens?_around before _ after ' ' _ whole (by decide) ends noReturn

theorem docstringText_contains_null (description : String) (given : description ≠ "")
    (noNull : description.contains '\x00' = false) :
    (docstringText (some description)).contains '\x00' = false := by
  have inside : '\x00' ∉ (Text.indent (Text.docstring description)).toList := by
    intro member
    rcases Text.mem_docstring description _ member with inside | layout
    · exact absurd inside (by simpa using noNull)
    · exact absurd layout (by decide)
  have whole := docstringText_toList description given
  have absent : '\x00' ∉ (docstringText (some description)).toList := by
    rw [whole]
    generalize (Text.indent (Text.docstring description)).toList = body at inside
    simpa [Text.margin] using inside
  simpa using absent

/-- Descriptions whose quotes do not join the closing ones make no difference to a source. -/
theorem isWellFormed_docstring (before after description other : String) (ends : EndsLine before)
    (given : description ≠ "") (noNull : description.contains '\x00' = false)
    (closes : joiningQuotes description = 0) (given' : other ≠ "")
    (noNull' : other.contains '\x00' = false) (closes' : joiningQuotes other = 0) :
    isWellFormed (before ++ docstringText (some description) ++ after) =
      isWellFormed (before ++ docstringText (some other) ++ after) := by
  have same : tokens? (before ++ docstringText (some description) ++ after) =
      tokens? (before ++ docstringText (some other) ++ after) := by
    rw [tokens?_docstring before after description given, tokens?_docstring before after other given',
      docstringText_contains_null description given noNull,
      docstringText_contains_null other given' noNull']
    cases reached : Lexer.run {} (unifyBreaks before.toList) with
    | none => rfl
    | some s =>
      obtain ⟨column, strict, kept, front⟩ := ends s reached
      have leaves := Text.docstring_leavesOpen description
      have leaves' := Text.docstring_leavesOpen other
      rw [closes] at leaves
      rw [closes'] at leaves'
      rw [docstringText_toList description given, docstringText_toList other given',
        Option.bind_some, Option.bind_some,
        Lexer.run_described s column strict kept front _ leaves,
        Lexer.run_described s column strict kept front _ leaves']
  rw [isWellFormed, isWellFormed, same]

/-- A description with one quote that joins the closing ones spoils the source. -/
theorem isWellFormed_docstring_early (before after description : String) (ends : EndsLine before)
    (given : description ≠ "") (joins : joiningQuotes description = 1) :
    isWellFormed (before ++ docstringText (some description) ++ after) = false := by
  have noTokens : tokens? (before ++ docstringText (some description) ++ after) = none := by
    rw [tokens?_docstring before after description given]
    split
    · rfl
    · cases reached : Lexer.run {} (unifyBreaks before.toList) with
      | none => rfl
      | some s =>
        obtain ⟨column, strict, kept, front⟩ := ends s reached
        have leaves := Text.docstring_leavesOpen description
        rw [joins] at leaves
        rw [docstringText_toList description given, Option.bind_some,
          Lexer.run_described_early s column strict kept front _ leaves]
        rfl
  rw [isWellFormed, noTokens]

/-! ## Texts around a description -/

/-- Whether a text that depends on a description has its docstring behind a text and in front of
another one. -/
def Describes (before : String) (text : String → String) : Prop :=
  ∃ after, ∀ description, text description = before ++ docstringText (some description) ++ after

theorem describes_docstring (before : String) :
    Describes before fun description => before ++ docstringText (some description) :=
  ⟨"", fun _ => String.append_empty.symm⟩

theorem Describes.append {before : String} {text : String → String}
    (describes : Describes before text) (tail : String) :
    Describes before fun description => text description ++ tail := by
  obtain ⟨after, same⟩ := describes
  refine ⟨after ++ tail, fun description => ?_⟩
  dsimp only
  rw [same, String.append_assoc]

theorem Describes.prepend {before : String} {text : String → String}
    (describes : Describes before text) (head : String) :
    Describes (head ++ before) fun description => head ++ text description := by
  obtain ⟨after, same⟩ := describes
  refine ⟨after, fun description => ?_⟩
  dsimp only
  rw [same]
  simp only [String.append_assoc]

/-- Among the classes of a list, the description of one is the description of them all. -/
theorem Describes.among {α : Type} {before : String} {text : α → String} {item : String → α}
    (describes : Describes before fun description => text (item description))
    (front back : List α) :
    Describes (each front text ++ before) fun description =>
      each (front ++ item description :: back) text := by
  have joined : (fun description => each (front ++ item description :: back) text) =
      fun description => each front text ++ text (item description) ++ each back text := by
    funext description
    simp [each, String.append_assoc]
  rw [joined]
  exact (describes.prepend (each front text)).append (each back text)

def EnumClass.openingText (e : EnumClass) : String :=
  "\n\nclass " ++ nameText e.name ++ "(str, _Enum):\n"

def ContractClass.openingText (c : ContractClass) : String :=
  "\n\nclass " ++ c.name ++ "(" ++ basesText c.bases ++ "):\n"

def ObjectClass.openingText (c : ObjectClass) : String :=
  "\n\nclass " ++ nameText c.name ++ "(" ++ basesText c.bases ++ "):\n"

theorem EnumClass.describes (e : EnumClass) :
    Describes e.openingText fun description => EnumClass.text { e with description } := by
  refine ⟨(if e.members.isEmpty then "    pass\n" else each e.members Member.text) ++
    e.companionText, fun description => ?_⟩
  unfold EnumClass.text openingText EnumClass.companionText
  simp only [String.append_assoc]

theorem ContractClass.describes (c : ContractClass) :
    Describes c.openingText fun description => ContractClass.text { c with description } := by
  obtain ⟨name, bases, _, implementers, attributes, accessors⟩ := c
  unfold ContractClass.text
  -- The condition stands in the way of the shape of the text, so it is decided first.
  cases attributes with
  | nil | cons first rest =>
    simp only [List.isEmpty_nil, List.isEmpty_cons, Bool.false_eq_true, if_true, if_false]
    iterate 6 apply Describes.append
    exact describes_docstring _

theorem ObjectClass.describes (c : ObjectClass) :
    Describes c.openingText fun description => ObjectClass.text { c with description } := by
  unfold ObjectClass.text
  dsimp only
  iterate 11 apply Describes.append
  exact describes_docstring _

/-- A class of a module that may be described otherwise, with the classes around it. -/
inductive Place where
  | enum (front : List EnumClass) (e : EnumClass) (back : List EnumClass)
  | contract (front : List ContractClass) (c : ContractClass) (back : List ContractClass)
  | object (front : List ObjectClass) (c : ObjectClass) (back : List ObjectClass)

namespace Place

/-- The module with a description of the class. -/
def describe (m : Module) (description : String) : Place → Module
  | enum front e back => { m with enums := front ++ { e with description } :: back }
  | contract front c back => { m with contracts := front ++ { c with description } :: back }
  | object front c back => { m with objects := front ++ { c with description } :: back }

/-- What the classes write before the description. -/
def classesBefore (m : Module) : Place → String
  | enum front e _ => each front EnumClass.text ++ e.openingText
  | contract front c _ =>
    each m.enums EnumClass.text ++ (each front ContractClass.text ++ c.openingText)
  | object front c _ =>
    each m.enums EnumClass.text ++ each m.contracts ContractClass.text ++
      (each front ObjectClass.text ++ c.openingText)

/-- What is written before the description. -/
def textBefore (m : Module) (place : Place) : String :=
  (place.describe m "").headText ++ place.classesBefore m

end Place

section

variable (m : Module) (description : String) (place : Place)

theorem Place.exported_describe :
    (place.describe m description).exported = (place.describe m "").exported := by
  cases place with
  | enum front e back =>
    cases constants : e.stringConstants <;>
      simp [describe, Module.exported, Module.models, constants]
  | contract front c back | object front c back =>
    simp [describe, Module.exported, Module.models]

/-- The head of a module does not tell its descriptions. -/
theorem Place.headText_describe :
    (place.describe m description).headText = (place.describe m "").headText := by
  have title : (place.describe m description).title = (place.describe m "").title := by
    cases place <;> rfl
  have imports : (place.describe m description).imports = (place.describe m "").imports := by
    cases place <;> rfl
  unfold Module.headText
  rw [place.exported_describe m description, title, imports]

/-- Neither does what is written behind the classes. -/
theorem Place.tail_describe :
    (place.describe m description).aliasesText = m.aliasesText ∧
      (place.describe m description).rebuildText = (place.describe m "").rebuildText := by
  have aliases : (place.describe m description).aliases = m.aliases := by
    cases place <;> rfl
  have models : (place.describe m description).models = (place.describe m "").models := by
    cases place <;> simp [describe, Module.models]
  rw [Module.aliasesText, Module.aliasesText, Module.rebuildText, Module.rebuildText, aliases, models]
  exact ⟨rfl, rfl⟩

end

theorem Place.classes_describe (m : Module) (place : Place) :
    Describes (place.classesBefore m) fun description =>
      each (place.describe m description).enums EnumClass.text ++
        each (place.describe m description).contracts ContractClass.text ++
        each (place.describe m description).objects ObjectClass.text := by
  cases place with
  | enum front e back =>
    exact ((e.describes.among front back).append (each m.contracts ContractClass.text)).append
      (each m.objects ObjectClass.text)
  | contract front c back =>
    exact ((c.describes.among front back).prepend (each m.enums EnumClass.text)).append
      (each m.objects ObjectClass.text)
  | object front c back =>
    exact (c.describes.among front back).prepend
      (each m.enums EnumClass.text ++ each m.contracts ContractClass.text)

/-- The docstring of a class is one part of the text of its module. -/
theorem Place.text_describe (m : Module) (place : Place) :
    Describes (place.textBefore m) fun description => (place.describe m description).text := by
  have whole := (((place.classes_describe m).prepend (place.describe m "").headText).append
    m.aliasesText).append (place.describe m "").rebuildText
  have same : ∀ description, (place.describe m description).text =
      (place.describe m "").headText ++ (each (place.describe m description).enums EnumClass.text ++
        each (place.describe m description).contracts ContractClass.text ++
        each (place.describe m description).objects ObjectClass.text) ++ m.aliasesText ++
        (place.describe m "").rebuildText := by
    intro description
    obtain ⟨aliases, rebuilt⟩ := place.tail_describe m description
    rw [Module.text, place.headText_describe m description, aliases, rebuilt]
    simp only [String.append_assoc]
  simpa only [same, textBefore] using whole

/-! ## Descriptions and well-formed sources -/

/-- Whether a description is written, can be read, and has no quotes that join the closing ones. -/
structure Closes (description : String) : Prop where
  given : description ≠ ""
  noNull : description.contains '\x00' = false
  joinsNone : joiningQuotes description = 0

/-- **Docstrings close where they end.** The literal of a description ends with its last three
quotes exactly if no quotes of the description join them, which only those in front of a carriage
return at its end do. Then the description of a class makes no difference to whether its module is
well formed; with one quote that joins them no module is. -/
theorem docstring_closes_iff (description : String) (given : description ≠ "") :
    docstringText (some description) =
      "    \"\"\"" ++ Text.indent (Text.docstring description) ++ "\"\"\"\n\n" ∧
    (afterClosing (Text.indent (Text.docstring description) ++ "\"\"\"").toList = some [] ↔
      joiningQuotes description = 0) ∧
    ∀ (header : String) (m : Module) (place : Place), EndsLine (header ++ place.textBefore m) →
      (joiningQuotes description = 1 →
        isWellFormed (header ++ (place.describe m description).text) = false) ∧
      (Closes description → ∀ other, Closes other →
        isWellFormed (header ++ (place.describe m description).text) =
          isWellFormed (header ++ (place.describe m other).text)) := by
  refine ⟨docstringText_given description given, ?_, fun header m place ends => ?_⟩
  · have closed := Text.afterClosing_docstring description
    rw [String.toList_append]
    generalize (Text.indent (Text.docstring description)).toList = body at closed ⊢
    rw [show "\"\"\"".toList = ['"', '"', '"'] from rfl, closed]
    simp
  · obtain ⟨after, whole⟩ := (place.text_describe m).prepend header
    dsimp only at whole
    refine ⟨fun joins => ?_, fun closes other closes' => ?_⟩
    · rw [whole]
      exact isWellFormed_docstring_early _ after description ends given joins
    · rw [whole, whole]
      exact isWellFormed_docstring _ after description other ends closes.given closes.noNull
        closes.joinsNone closes'.given closes'.noNull closes'.joinsNone

/-! ## A description that ends in a quote and a carriage return -/

/-- A module for one enum. -/
def colorModule : Module where
  title := "colors"
  imports := []
  enums := []
  contracts := []
  objects := []
  aliases := []

def colorEnum : EnumClass where
  name := some "Color"
  description := none
  members := []
  stringConstants := false

def colorPlace : Place := .enum [] colorEnum []

theorem colorPlace_endsLine : EndsLine ("" ++ colorPlace.textBefore colorModule) := by
  have reached : ((Lexer.run {} (unifyBreaks
      ("" ++ colorPlace.textBefore colorModule).toList)).map (·.mode) ==
        some (.lineStart 0 0 none)) = true := by
    -- The characters of a long text are slow to read off, so they are read part by part.
    unfold Place.textBefore Module.headText Place.classesBefore EnumClass.openingText
    simp only [colorPlace, colorModule, colorEnum, Place.describe, String.toList_append,
      Text.toList_of_eq rfl]
    decide +kernel
  intro s given
  rw [given] at reached
  exact ⟨0, 0, none, by simpa using reached⟩

/-- With one quote before a carriage return at the end, the module is not well formed; quotes
elsewhere are as good as none. -/
theorem docstring_closes_iff_color :
    isWellFormed ("" ++ (colorPlace.describe colorModule "say \"red\"\r").text) = false ∧
    isWellFormed ("" ++ (colorPlace.describe colorModule "say \"red\"").text) =
      isWellFormed ("" ++ (colorPlace.describe colorModule "red").text) := by
  obtain ⟨-, -, refuses⟩ := docstring_closes_iff "say \"red\"\r" (by simp)
  obtain ⟨-, -, agrees⟩ := docstring_closes_iff "say \"red\"" (by simp)
  exact ⟨(refuses "" colorModule colorPlace colorPlace_endsLine).1 (by decide),
    (agrees "" colorModule colorPlace colorPlace_endsLine).2 ⟨by simp, by simp, by decide⟩
      "red" ⟨by simp, by simp, by decide⟩⟩

/-- A docstring need not close where it ends. -/
theorem docstring_may_not_close :
    ¬∀ description : String, description ≠ "" → description.contains '\x00' = false →
      afterClosing (Text.indent (Text.docstring description) ++ "\"\"\"").toList = some [] := by
  intro closes
  have closed := closes "\"\r" (by simp) (by simp)
  rw [String.toList_append, show "\"\"\"".toList = ['"', '"', '"'] from rfl,
    Text.afterClosing_docstring] at closed
  exact absurd closed (by decide)

end GraphQLModels.Source
