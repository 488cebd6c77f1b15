import GraphQLModels.Generation
import GraphQLModels.Proofs.DescribedClasses
import GraphQLModels.Proofs.LaidOut

/-!
# The docstring of a module

The name of a module is written as it is into the docstring that the module begins with. A name that
leaves the docstring open for the rest of it is documentation and nothing else. Any other name ends
the docstring, and what is left of it is source.
-/

namespace GraphQLModels

open Text (afterClosing StaysOpen)

namespace Text

/-! ## Texts that end a literal -/

/-- A text leaves a literal open where a point follows, or it ends the literal. -/
theorem afterClosing_cases (cs : List Char) (quotes : Nat) (few : quotes < 3) :
    (afterClosing (List.replicate quotes '"' ++ cs) = none ∧ StaysOpen quotes (cs ++ ['.']) 0) ∨
      ∃ left, ∀ more, afterClosing (List.replicate quotes '"' ++ (cs ++ more)) =
        some (left ++ more) := by
  -- The quotes in front are those that stand behind each other so far; three would end the literal.
  fun_induction afterClosing cs generalizing quotes with
  | case1 c rest ih =>
    have past := afterClosing_escape quotes few c
    rcases ih 0 (by decide) with ⟨open', stays⟩ | ⟨left, closes⟩
    · exact .inl ⟨(past rest).trans open', .escape stays⟩
    · exact .inr ⟨left, fun more => (past (rest ++ more)).trans (closes more)⟩
  | case2 rest =>
    refine .inr ?_
    match quotes, few with
    | 0, _ => exact ⟨rest, fun _ => rfl⟩
    | 1, _ => exact ⟨'"' :: rest, fun _ => rfl⟩
    | 2, _ => exact ⟨'"' :: '"' :: rest, fun _ => rfl⟩
  | case3 c rest noEscape _ ih =>
    by_cases quote : c = '"'
    · subst quote
      by_cases full : quotes = 2
      · subst full
        exact .inr ⟨rest, fun _ => rfl⟩
      · have less : quotes < 2 := by omega
        rcases ih (quotes + 1) (by omega) with ⟨open', stays⟩ | ⟨left, closes⟩
        · exact .inl ⟨replicate_quote quotes rest ▸ open', .quote less stays⟩
        · refine .inr ⟨left, fun more => ?_⟩
          rw [List.cons_append, replicate_quote]
          exact closes more
    · by_cases backslash : c = '\\'
      · -- A backslash at the end takes the point with it.
        subst backslash
        cases rest with
        | cons d others => exact absurd rfl (noEscape d others rfl)
        | nil => exact .inl ⟨afterClosing_quotes quotes few _ _ (by decide), .escape (.nil 0)⟩
      · have past := fun rest => afterClosing_other quotes few c rest quote backslash
        rcases ih 0 (by decide) with ⟨open', stays⟩ | ⟨left, closes⟩
        · exact .inl ⟨(past rest).trans open', .other quote backslash stays⟩
        · exact .inr ⟨left, fun more => (past (rest ++ more)).trans (closes more)⟩
  | case4 =>
    refine .inl ⟨?_, .other (by decide) (by decide) (.nil 0)⟩
    match quotes, few with
    | 0, _ | 1, _ | 2, _ => rfl

/-- A text that does not end a literal leaves it open where a point follows. -/
theorem staysOpen_point (cs : List Char) (open' : afterClosing cs = none) :
    StaysOpen 0 (cs ++ ['.']) 0 := by
  rcases afterClosing_cases cs 0 (by decide) with ⟨-, stays⟩ | ⟨left, closes⟩
  · exact stays
  · have closed := closes []
    rw [List.append_nil, List.replicate_zero, List.nil_append, open'] at closed
    cases closed

/-- A text that ends a literal ends it with anything behind it too. -/
theorem afterClosing_append (cs left more : List Char) (closes : afterClosing cs = some left) :
    afterClosing (cs ++ more) = some (left ++ more) := by
  rcases afterClosing_cases cs 0 (by decide) with ⟨open', -⟩ | ⟨other, closes'⟩
  · cases closes.symm.trans open'
  · have same := closes' []
    rw [List.append_nil, List.replicate_zero, List.nil_append, closes, List.append_nil] at same
    exact Option.some.inj same ▸ closes' more

/-- A text without quotes and backslashes leaves a literal open. -/
theorem staysOpen_plain (cs : List Char) (plain : cs.all (fun c => c != '"' && c != '\\') = true) :
    StaysOpen 0 cs 0 := by
  induction cs with
  | nil => exact .nil 0
  | cons c rest ih =>
    simp only [List.all_cons, Bool.and_eq_true, bne_iff_ne] at plain
    exact .other plain.1.1 plain.1.2 (ih plain.2)

end Text

namespace Source

/-- Quotes at the front of a text are at the front once its line breaks are unified, and no more. -/
theorem unifyBreaks_eq_quote (cs rest : List Char) (front : unifyBreaks cs = '"' :: rest) :
    ∃ after, cs = '"' :: after ∧ unifyBreaks after = rest := by
  fun_induction unifyBreaks cs with
  | case1 | case2 | case4 => cases front
  | case3 c cs =>
    obtain ⟨rfl, rfl⟩ := List.cons.inj front
    exact ⟨cs, rfl, rfl⟩

/-- A carriage return becomes a line feed, with the one behind it if there is one. -/
theorem unifyBreaks_return (rest : List Char) :
    (∃ behind, rest = '\n' :: behind ∧ unifyBreaks ('\r' :: rest) = unifyBreaks rest) ∨
      unifyBreaks ('\r' :: rest) = '\n' :: unifyBreaks rest := by
  by_cases joined : ∃ behind, rest = '\n' :: behind
  · obtain ⟨behind, rfl⟩ := joined
    exact .inl ⟨behind, rfl, rfl⟩
  · refine .inr ?_
    rw [unifyBreaks]
    exact fun behind same => joined ⟨behind, same⟩

/-- Unifying the line breaks of a text makes no difference to where it ends a literal. -/
theorem afterClosing_unifyBreaks (cs : List Char) :
    afterClosing (unifyBreaks cs) = (afterClosing cs).map unifyBreaks := by
  fun_induction afterClosing cs with
  | case1 c rest ih =>
    rw [unifyBreaks_cons '\\' _ (by decide)]
    by_cases return' : c = '\r'
    · subst return'
      -- The line feed behind the carriage return is joined to it, and ends nothing either way.
      rcases unifyBreaks_return rest with ⟨behind, rfl, joined⟩ | alone
      · rw [joined]
        exact ih
      · rw [alone]
        exact ih
    · rw [unifyBreaks_cons c _ return']
      exact ih
  | case2 rest =>
    rw [unifyBreaks_cons '"' _ (by decide), unifyBreaks_cons '"' _ (by decide),
      unifyBreaks_cons '"' _ (by decide)]
    rfl
  | case3 c rest noEscape noClosing ih =>
    by_cases return' : c = '\r'
    · subst return'
      rcases unifyBreaks_return rest with ⟨behind, rfl, joined⟩ | alone
      · rw [joined]
        exact ih
      · rw [alone]
        exact ih
    · rw [unifyBreaks_cons c _ return', afterClosing]
      · exact ih
      · rintro d others rfl same
        cases rest with
        | nil => cases same
        | cons e behind => exact noEscape e behind rfl rfl
      · rintro others rfl same
        obtain ⟨first, rfl, next⟩ := unifyBreaks_eq_quote rest _ same
        obtain ⟨second, rfl, -⟩ := unifyBreaks_eq_quote first _ next
        exact noClosing second rfl rfl
  | case4 => rfl

/-! ## The docstring and what is behind it -/

/-- What stands behind the literal of three quotes that a source begins with under its headers. -/
def behindDocstring? (header source : String) : Option (List Char) :=
  match source.toList.drop header.toList.length with
  | '"' :: '"' :: '"' :: rest => afterClosing rest
  | _ => none

/-- What a docstring says in front of the title of a module. -/
def titleFront : String := "Generated GraphQL models for "

/-- What a docstring says behind the point that follows the title. -/
def titleEnd : String := "\n\nDo not edit by hand; regenerate from the schema instead.\n"

/-- A source that begins with a docstring for a title. -/
def titled (title rest : String) : String :=
  "\"\"\"" ++ (titleFront ++ (title ++ ("." ++ (titleEnd ++ ("\"\"\"\n" ++ rest)))))

/-- The title of a module is in its docstring and nowhere else. -/
theorem Module.text_titled (m : Module) :
    ∃ rest, ∀ title, ({ m with title } : Module).text = titled title rest := by
  have front : "\"\"\"Generated GraphQL models for " = "\"\"\"" ++ titleFront := by
    decide
  have back : ".\n\n" ++ "Do not edit by hand; regenerate from the schema instead.\n\"\"\"\n\n" =
      "." ++ (titleEnd ++ ("\"\"\"\n" ++ "\n")) := by
    decide
  have back' : ∀ rest, ".\n\n" ++
      ("Do not edit by hand; regenerate from the schema instead.\n\"\"\"\n\n" ++ rest) =
        "." ++ (titleEnd ++ ("\"\"\"\n" ++ ("\n" ++ rest))) := by
    intro rest
    rw [← String.append_assoc, back]
    simp only [String.append_assoc]
  refine ⟨?rest, fun title => ?same⟩
  case same =>
    have exported : ({ m with title } : Module).exported = m.exported := by
      simp only [Module.exported, Module.models]
    have aliases : ({ m with title } : Module).aliasesText = m.aliasesText := by
      simp only [Module.aliasesText]
    have models : ({ m with title } : Module).models = m.models := rfl
    have rebuilt : ({ m with title } : Module).rebuildText = m.rebuildText := by
      rw [Module.rebuildText, Module.rebuildText, models]
    unfold Module.text Module.headText titled
    simp only [String.append_assoc, exported, aliases, rebuilt, front, back',
      String.append_right_inj]
    exact rfl

theorem titleFront_staysOpen : StaysOpen 0 titleFront.toList 0 :=
  Text.staysOpen_plain _ (by decide)

/-- What a docstring says, given the characters of the title. -/
def titledBody (title : List Char) : List Char :=
  titleFront.toList ++ (title ++ (['.'] ++ titleEnd.toList))

theorem titledBody_staysOpen (title : List Char) (open' : afterClosing title = none) :
    StaysOpen 0 (titledBody title) 0 := by
  have back : StaysOpen 0 titleEnd.toList 0 := Text.staysOpen_plain _ (by decide)
  rw [titledBody, ← List.append_assoc title]
  exact titleFront_staysOpen.append ((Text.staysOpen_point title open').append back)

theorem titled_toList (title rest : String) :
    (titled title rest).toList = ['"', '"', '"'] ++
      (titledBody title.toList ++ (['"', '"', '"'] ++ '\n' :: rest.toList)) := by
  simp only [titled, titledBody, String.toList_append, List.append_assoc]
  rfl

section

variable (header rest : String)

/-- A title that does not end the docstring leaves what is behind it as it is; any other one puts what
is left of it in front, with the rest of the docstring. -/
theorem behindDocstring?_titled (title : String) :
    behindDocstring? header (header ++ titled title rest) =
      match afterClosing title.toList with
      | none => some ('\n' :: rest.toList)
      | some left => some (left ++ (['.'] ++ titleEnd.toList ++ (['"', '"', '"'] ++
          '\n' :: rest.toList))) := by
  rw [behindDocstring?, String.toList_append, List.drop_left, titled_toList]
  change afterClosing (titledBody title.toList ++ _) = _
  cases ends : afterClosing title.toList with
  | none => exact (titledBody_staysOpen _ ends).afterClosing_append (by decide) _
  | some left =>
    rw [titledBody, List.append_assoc, List.append_assoc]
    exact (titleFront_staysOpen.afterClosing_append (by decide) _).trans
      (Text.afterClosing_append _ _ _ ends)

/-- What is behind the docstring tells titles apart only by what is left of them. -/
theorem behindDocstring?_eq_iff (one other : String) :
    behindDocstring? header (header ++ titled one rest) =
        behindDocstring? header (header ++ titled other rest) ↔
      afterClosing one.toList = afterClosing other.toList := by
  -- What a title leaves behind the docstring is longer than what is behind it anyway.
  have longer : ∀ left : List Char, '\n' :: rest.toList ≠ left ++ (['.'] ++ titleEnd.toList ++
      (['"', '"', '"'] ++ '\n' :: rest.toList)) := by
    intro left same
    have lengths := congrArg List.length same
    simp only [List.length_append, List.length_cons, List.length_nil] at lengths
    omega
  rw [behindDocstring?_titled, behindDocstring?_titled]
  cases ends : afterClosing one.toList with
  | none =>
    cases ends' : afterClosing other.toList with
    | none => exact ⟨fun _ => rfl, fun _ => rfl⟩
    | some left => exact ⟨fun same => absurd (Option.some.inj same) (longer left), nofun⟩
  | some left =>
    cases ends' : afterClosing other.toList with
    | none => exact ⟨fun same => absurd (Option.some.inj same).symm (longer left), nofun⟩
    | some left' =>
      refine ⟨fun same => ?_, fun same => ?_⟩
      · exact congrArg some (List.append_cancel_right (Option.some.inj same))
      · cases same
        rfl

/-! ## The tokens of a source -/

/-- A source with its breaks unified, cut where its docstring begins and ends. -/
theorem normalise_titled (title : String) :
    normalise (header ++ titled title rest) = unifyBreaks header.toList ++
      (['"', '"', '"'] ++ (titledBody (unifyBreaks title.toList) ++ ['"', '"', '"']) ++
        '\n' :: endedTail (unifyBreaks rest.toList)) := by
  have whole : header ++ titled title rest = header ++ ("\"\"\"" ++ (titleFront ++ title)) ++
      ("." ++ (titleEnd ++ "\"\"\"\n")) ++ rest := by
    simp only [titled, String.append_assoc]
  have front : unifyBreaks (header ++ ("\"\"\"" ++ (titleFront ++ title))).toList =
      unifyBreaks header.toList ++
        (['"', '"', '"'] ++ (titleFront.toList ++ unifyBreaks title.toList)) := by
    simp only [String.toList_append]
    rw [show "\"\"\"".toList = '"' :: ['"', '"'] from rfl, List.cons_append,
      unifyBreaks_append_cons _ _ '"' (by decide) (by decide),
      unifyBreaks_append ['"', '"'] _ (by decide), unifyBreaks_append _ _ (by decide)]
    rfl
  have back : ("." ++ (titleEnd ++ "\"\"\"\n")).toList =
      '.' :: (titleEnd.toList ++ ['"', '"', '"', '\n']) := by
    simp only [String.toList_append]
    rfl
  have noReturn : '\r' ∉ ("." ++ (titleEnd ++ "\"\"\"\n")).toList := by
    rw [back]
    decide
  have ends : ("." ++ (titleEnd ++ "\"\"\"\n")).toList.getLast? = some '\n' := by
    rw [back]
    decide
  rw [whole, normalise_around _ _ rest '.' _ back (by decide) ends noReturn, front, back, titledBody]
  simp only [List.append_assoc, List.cons_append, List.nil_append]

/-- The tokens of a source with a literal behind its headers, whatever the literal holds. -/
def documentedTokens? : Option (List Token) :=
  (Lexer.run {} (unifyBreaks header.toList)).bind fun s =>
    (Lexer.run s ['"', '"', '"']).bind fun s =>
      (Lexer.run (s.emit (.literal ⟨.plain, false⟩ []))
        ('\n' :: endedTail (unifyBreaks rest.toList))).bind Lexer.finish

theorem tokens?_of_isWellFormed (source : String) (wellFormed : isWellFormed source = true) :
    ∃ tokens, tokens? source = some tokens := by
  unfold isWellFormed at wellFormed
  split at wellFormed
  · exact ⟨_, ‹_›⟩
  · cases wellFormed

/-- A title that leaves the docstring open makes no difference to the tokens. -/
theorem tokens?_titled (ends : EndsLine header) (title : String)
    (open' : afterClosing title.toList = none) (tokens : List Token)
    (read : tokens? (header ++ titled title rest) = some tokens) :
    documentedTokens? header rest = some tokens := by
  have stays := titledBody_staysOpen (unifyBreaks title.toList)
    (by rw [afterClosing_unifyBreaks, open', Option.map_none])
  rw [tokens?] at read
  split at read
  · cases read
  rw [normalise_titled, Lexer.run_append] at read
  rw [documentedTokens?]
  cases reached : Lexer.run {} (unifyBreaks header.toList) with
  | none => rw [reached] at read; cases read
  | some s =>
    obtain ⟨column, strict, kept, front⟩ := ends s reached
    rw [reached, Option.bind_some, Lexer.run_append, Lexer.run_opened s _ _
      (fun t => Lexer.run_quotes s t column strict kept front) stays] at read
    rw [Option.bind_some]
    cases opened : Lexer.run s ['"', '"', '"'] with
    | none => rw [opened] at read; cases read
    | some t =>
      rw [opened, Option.bind_some] at read
      split at read
      · exact read
      · cases read

end

end Source

/-! ## Rendering under another name -/

theorem Hook.runHeaders_append (hooks : List Hook) (content : String) :
    runHeaders hooks content = runHeaders hooks "" ++ content := by
  unfold runHeaders
  induction hooks.filterMap header? generalizing content with
  | nil => exact String.empty_append.symm
  | cons header headers ih =>
    rw [List.foldl_cons, List.foldl_cons, ih, ih (putHeader "" header)]
    simp only [putHeader, String.append_assoc, String.empty_append]

/-- The name of a module becomes the title of its source, and makes no other difference to it. -/
theorem source_named (m : Module) (setup : Setup) (name other : String) (source : Source.Module)
    (laidOut : ({ m with moduleName := name } : Module).source setup = .ok source) :
    ({ m with moduleName := other } : Module).source setup = .ok { source with title := other } ∧
      source.title = name := by
  unfold Module.source at laidOut ⊢
  split at laidOut
  · rename_i canFilter
    rw [if_pos canFilter]
    obtain ⟨contracts, ofContracts, laidOut⟩ := (Outcome.bind_ok_iff _ _ _).mp laidOut
    obtain ⟨objects, ofObjects, laidOut⟩ := (Outcome.bind_ok_iff _ _ _).mp laidOut
    obtain ⟨enums, ofEnums, laidOut⟩ := (Outcome.bind_ok_iff _ _ _).mp laidOut
    cases laidOut
    refine ⟨?_, rfl⟩
    simp only [Source.layOut, ofContracts, ofObjects, ofEnums, Outcome.ok_bind]
    rfl
  · cases laidOut

/-- What the built-in template renders is the text of a module, well formed with its headers. -/
theorem render_builtIn (m : Module) (setup : Setup) (builtIn : setup.template = none)
    (filename text : String) (rendered : m.render setup filename = .ok text) :
    ∃ source, m.source setup = .ok source ∧ text = Hook.runHeaders setup.hooks source.text ∧
      Source.isWellFormed text = true := by
  obtain ⟨source, laidOut, rendered⟩ := (Outcome.bind_ok_iff _ _ _).mp rendered
  rw [builtIn] at rendered
  obtain ⟨content, same, rendered⟩ := (Outcome.bind_ok_iff _ _ _).mp rendered
  rw [← (Outcome.pure_ok_iff _ _).mp same] at rendered
  dsimp only at rendered
  split at rendered
  · rename_i wellFormed
    cases rendered
    exact ⟨source, (Outcome.mapError_ok_iff _ _ _).mp laidOut, rfl, wellFormed⟩
  · cases rendered

/-- The names of a module differ in the title of what is rendered, and in nothing else. -/
theorem render_titled (m : Module) (setup : Setup) (builtIn : setup.template = none)
    (filename : String) :
    ∃ rest, ∀ name text, ({ m with moduleName := name } : Module).render setup filename = .ok text →
      text = Hook.runHeaders setup.hooks "" ++ Source.titled name rest ∧
        Source.isWellFormed text = true := by
  cases laidOut : m.source setup with
  | error e =>
    refine ⟨"", fun name text rendered => ?_⟩
    obtain ⟨source, given, -⟩ := render_builtIn _ setup builtIn filename text rendered
    rw [(source_named m setup name m.moduleName source given).1] at laidOut
    cases laidOut
  | ok source =>
    obtain ⟨rest, same⟩ := source.text_titled
    refine ⟨rest, fun name text rendered => ?_⟩
    obtain ⟨other, given, rfl, wellFormed⟩ := render_builtIn _ setup builtIn filename text rendered
    refine ⟨?_, wellFormed⟩
    rw [(source_named m setup m.moduleName name source laidOut).1] at given
    cases given
    rw [Hook.runHeaders_append, same]

/-- **Names of modules.** With the template that is built in, what stands behind the docstring of a
module is the same under two names exactly if neither of them ends the docstring, or both leave the
same text when they do. Names that do not end it give the same tokens behind headers that are
complete, so they are documentation and nothing else. -/
theorem moduleName_documents_iff (m : Module) (setup : Setup) (builtIn : setup.template = none)
    (filename one other text text' : String)
    (rendered : ({ m with moduleName := one } : Module).render setup filename = .ok text)
    (rendered' : ({ m with moduleName := other } : Module).render setup filename = .ok text') :
    let header := Hook.runHeaders setup.hooks ""
    (Source.behindDocstring? header text = Source.behindDocstring? header text' ↔
      afterClosing one.toList = afterClosing other.toList) ∧
    (Source.EndsLine header → afterClosing one.toList = none → afterClosing other.toList = none →
      Source.tokens? text = Source.tokens? text') := by
  intro header
  obtain ⟨rest, titled⟩ := render_titled m setup builtIn filename
  obtain ⟨rfl, wellFormed⟩ := titled one text rendered
  obtain ⟨rfl, wellFormed'⟩ := titled other text' rendered'
  refine ⟨Source.behindDocstring?_eq_iff _ _ _ _, fun complete open' openOther => ?_⟩
  obtain ⟨tokens, read⟩ := Source.tokens?_of_isWellFormed _ wellFormed
  obtain ⟨tokens', read'⟩ := Source.tokens?_of_isWellFormed _ wellFormed'
  -- Both are read as the source in which the docstring does not tell what it holds.
  have whole := Source.tokens?_titled _ _ complete one open' tokens read
  have whole' := Source.tokens?_titled _ _ complete other openOther tokens' read'
  rw [read, read', ← whole, ← whole']

/-! ## A stall -/

def stall : Module := { moduleName := "stall", definitions := [] }

def stallSource (title : String) : Source.Module where
  title
  imports := []
  enums := []
  contracts := []
  objects := []
  aliases := []

/-- A name that ends the docstring, has a statement, and begins another literal. -/
def strayName : String := "x\"\"\"\nimport os\n\"\"\""

theorem stall_isWellFormed : ∀ name ∈ ["shop", "the \"shop\"", strayName],
    Source.isWellFormed (stallSource name).text = true := by
  -- The characters of a long text are slow to read off, so they are read part by part.
  unfold Source.isWellFormed Source.tokens? Source.normalise Source.Module.text
    Source.Module.headText stallSource
  simp only [String.contains_char_eq, String.toList_append, Text.toList_of_eq rfl]
  decide +kernel

theorem stall_rendered (name : String) (listed : name ∈ ["shop", "the \"shop\"", strayName]) :
    ({ stall with moduleName := name } : Module).render {} "stall.py" =
      .ok (stallSource name).text := by
  have laidOut : ({ stall with moduleName := name } : Module).source {} =
      .ok (stallSource name) :=
    source_of_sorted _ _ _ rfl rfl
  rw [Module.render, laidOut]
  exact if_pos (stall_isWellFormed name listed)

/-- Quotes in a name that are not three in a row are documentation. -/
theorem moduleName_documents_iff_shop :
    Source.behindDocstring? "" (stallSource "shop").text =
        Source.behindDocstring? "" (stallSource "the \"shop\"").text ∧
      Source.tokens? (stallSource "shop").text =
        Source.tokens? (stallSource "the \"shop\"").text := by
  have open' : afterClosing "shop".toList = none := by decide
  have openOther : afterClosing "the \"shop\"".toList = none := by decide
  obtain ⟨behind, tokens⟩ := moduleName_documents_iff stall {} rfl "stall.py" "shop" "the \"shop\""
    _ _ (stall_rendered _ (by simp)) (stall_rendered _ (by simp))
  have complete : Source.EndsLine "" := by
    intro s reached
    cases reached
    exact ⟨0, 0, none, rfl⟩
  exact ⟨behind.mpr (open'.trans openOther.symm), tokens complete open' openOther⟩

/-- With the other name the module has a statement and a literal in front of its own. -/
theorem stall_tokens? : Source.tokens? (stallSource strayName).text =
    (Source.tokens? (stallSource "shop").text).map fun tokens =>
      tokens.take 2 ++ [.word "import", .word "os", .newline] ++ tokens := by
  unfold Source.tokens? Source.normalise Source.Module.text Source.Module.headText stallSource
  simp only [String.contains_char_eq, String.toList_append, Text.toList_of_eq rfl]
  decide +kernel

/-- A name need not be documentation: behind the first literal, one module may have more statements
than the other. -/
theorem moduleName_may_add_statement :
    ¬∀ (m : Module) (filename one other text text' : String),
      ({ m with moduleName := one } : Module).render {} filename = .ok text →
      ({ m with moduleName := other } : Module).render {} filename = .ok text' →
      (Source.tokens? text).map List.tail = (Source.tokens? text').map List.tail := by
  intro same
  have alike := same stall "stall.py" "shop" strayName _ _ (stall_rendered _ (by simp))
    (stall_rendered _ (by simp))
  obtain ⟨tokens, read⟩ := Source.tokens?_of_isWellFormed _ (stall_isWellFormed "shop" (by simp))
  rw [stall_tokens?, read, Option.map_some, Option.map_some, Option.map_some] at alike
  have lengths := congrArg List.length (Option.some.inj alike)
  simp only [List.length_tail, List.length_append, List.length_cons, List.length_nil] at lengths
  omega

end GraphQLModels
