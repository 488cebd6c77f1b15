import GraphQLModels.Import
import GraphQLModels.Proofs.LoadedClasses
import GraphQLModels.Proofs.Mappings
import GraphQLModels.Proofs.Pairs
import GraphQLModels.Proofs.TextRuns

/-!
# Names that imports bind

An import statement binds a name for each of its clauses. The statement that a dotted target needs
binds the last part of the path. Where a statement can be loaded it binds one name, and for a table
whose statements bind what they are registered for this is the name that is written for the target.
-/

namespace GraphQLModels

namespace Text

/-- What a path is made of: words and points between them. -/
def isPathChar (c : Char) : Bool := Source.Lexer.isWordChar c || c == '.'

/-- The words of a statement. A path is one word. -/
def words (statement : String) : List String := runs isPathChar statement

/-- A text is split at its last separator. -/
theorem splitLast_iff (separator : Char) (text front last : String) :
    splitLast separator text = some (front, last) ↔
      text.toList = front.toList ++ separator :: last.toList ∧ separator ∉ last.toList := by
  unfold splitLast
  constructor
  · intro split
    cases rest : text.toList.reverse.dropWhile (· != separator) with
    | nil => simp [rest] at split
    | cons c before =>
      simp only [rest, Option.some.injEq, Prod.mk.injEq] at split
      obtain ⟨rfl, rfl⟩ := split
      obtain ⟨rfl, joined, free⟩ := (cut_iff separator c _ _ before).mp ⟨rfl, rest⟩
      rw [String.toList_ofList, String.toList_ofList]
      refine ⟨?_, by simpa using free⟩
      simpa using congrArg List.reverse joined
  · rintro ⟨joined, isLast⟩
    have reversed :
        text.toList.reverse = last.toList.reverse ++ separator :: front.toList.reverse := by
      rw [joined]
      simp
    obtain ⟨taken, dropped⟩ :=
      (cut_iff separator separator _ _ _).mpr ⟨rfl, reversed, by simpa using isLast⟩
    simp [taken, dropped]

/-- A text has one place where it is first split. -/
theorem SplitsAt.unique {separator : Char} {text left right left' right' : String}
    (split : SplitsAt separator text left right) (split' : SplitsAt separator text left' right') :
    left = left' ∧ right = right' := by
  have found := (splitFirst_iff separator text left right).mpr split
  have found' := (splitFirst_iff separator text left' right').mpr split'
  exact Prod.mk.inj (Option.some.inj (found.symm.trans found'))

end Text

namespace Source

/-- The names that the clauses of an import bind: each its own, or the other one that it gives. -/
def clauseNames : List String → List String
  | name :: mark :: other :: rest =>
    if mark = "as" then other :: clauseNames rest else name :: clauseNames (mark :: other :: rest)
  | names => names

/-- The names that an import statement binds. A path that is imported itself binds its first part. -/
def boundNames (statement : String) : List String :=
  match Text.words statement with
  | "from" :: _ :: "import" :: clauses => clauseNames clauses
  | "import" :: clauses =>
    (clauseNames clauses).map fun name => String.ofList (name.toList.takeWhile (· != '.'))
  | _ => []

/-- Whether a text is a path, or a name in one. -/
def IsPath (path : String) : Prop := path ≠ "" ∧ ∀ c ∈ path.toList, Text.isPathChar c = true

theorem IsPath.no_blank {path : String} (isPath : IsPath path) : ' ' ∉ path.toList := by
  intro blank
  exact absurd (isPath.2 ' ' blank) (by decide)

/-- A statement that imports a name from a module binds the name. -/
theorem boundNames_from (path name : String) (isPath : IsPath path) (isName : IsPath name) :
    boundNames ("from " ++ path ++ " import " ++ name) = [name] := by
  have parts : "from " ++ path ++ " import " ++ name =
      "from" ++ String.singleton ' ' ++ path ++ String.singleton ' ' ++ "import" ++
        String.singleton ' ' ++ name := by
    apply String.toList_inj.mp
    simp [String.toList_append]
  have words : Text.words ("from " ++ path ++ " import " ++ name) =
      ["from", path, "import", name] := by
    have own : ∀ keyword ∈ ["from", "import"], Text.runs Text.isPathChar keyword = [keyword] := by
      decide
    rw [parts, Text.words, Text.runs_separated _ _ _ (by decide),
      Text.runs_separated _ _ _ (by decide), Text.runs_separated _ _ _ (by decide),
      Text.runs_whole path isPath.1 isPath.2, Text.runs_whole name isName.1 isName.2,
      own "from" (by decide), own "import" (by decide)]
    rfl
  rw [boundNames, words]
  rfl

end Source

namespace Model

open Source (boundNames)

theorem importParts?_split (statement origin name : String)
    (given : importParts? statement = some (origin, name)) :
    statement = "from " ++ origin ++ " import " ++ name ∧ ' ' ∉ origin.toList := by
  obtain ⟨⟨keyword, rest⟩, first, given⟩ := Option.bind_eq_some_iff.mp given
  obtain ⟨⟨path, rest'⟩, second, given⟩ := Option.bind_eq_some_iff.mp given
  obtain ⟨⟨keyword', last⟩, third, given⟩ := Option.bind_eq_some_iff.mp given
  obtain ⟨keywords, same⟩ := Option.ite_none_right_eq_some.mp given
  cases same
  simp only [Bool.and_eq_true, beq_iff_eq] at keywords
  obtain ⟨rfl, rfl⟩ := keywords
  have first := (Text.splitFirst_iff _ _ _ _).mp first
  have second := (Text.splitFirst_iff _ _ _ _).mp second
  have third := (Text.splitFirst_iff _ _ _ _).mp third
  refine ⟨String.toList_inj.mp ?_, second.first⟩
  rw [first.joined, second.joined, third.joined]
  simp [String.toList_append]

/-- The modules that a module that is loaded can import names from. -/
def openModules : List String := importedNames.map (·.1.1) ++ ["builtins"]

/-- The names that a module that is loaded can import. -/
def openNames : List String := importedNames.map (·.1.2) ++ builtinNames

set_option maxRecDepth 4000 in
theorem open_paths : ∀ name ∈ openModules ++ openNames, Source.IsPath name := by
  have all : (openModules ++ openNames).all
      (fun name => !name.isEmpty && name.toList.all Text.isPathChar) = true := by
    simp only [openModules, openNames, importedNames, builtinNames, List.map_cons, List.map_nil,
      List.cons_append, List.nil_append, List.all_cons, List.all_nil, Text.toList_of_eq rfl]
    decide +kernel
  intro name isOpen
  have isPath := List.all_eq_true.mp all name isOpen
  rw [Bool.and_eq_true, List.all_eq_true] at isPath
  exact ⟨by simpa using isPath.1, isPath.2⟩

/-- A statement that names an open module has a module and a name. -/
theorem importParts?_of_open (statement : String)
    (isModule : (importParts statement).1 ∈ openModules) :
    importParts? statement = some (importParts statement) := by
  unfold importParts at isModule ⊢
  cases parts : importParts? statement with
  | none =>
    rw [parts] at isModule
    exact absurd isModule (by decide)
  | some pair => rfl

/-- An import binds one name of a module that is known, or those that the world tells. -/
theorem Imports.cases {world : World} {statement : String} {bindings : List (String × Binding)}
    (imports : Imports world statement bindings) :
    (∃ origin ∈ openModules, ∃ name ∈ openNames, importParts? statement = some (origin, name) ∧
        bindings.map (·.1) = [name]) ∨
      world.imports statement = some (bindings.map (·.1)) := by
  cases imports with
  | known found =>
    have listed := findKey?_mem _ _ _ found
    have isModule : (importParts statement).1 ∈ openModules :=
      List.mem_append_left _ (List.mem_map.mpr ⟨_, listed, rfl⟩)
    exact .inl ⟨_, isModule, _, List.mem_append_left _ (List.mem_map.mpr ⟨_, listed, rfl⟩),
      importParts?_of_open statement isModule, rfl⟩
  | builtin origin listed found =>
    have isModule : (importParts statement).1 ∈ openModules :=
      List.mem_append_right _ (List.mem_singleton.mpr origin)
    exact .inl ⟨_, isModule, _, List.mem_append_right _ listed,
      importParts?_of_open statement isModule, rfl⟩
  | foreign told =>
    rw [List.map_map]
    exact .inr (told.trans (congrArg some (List.map_id' _).symm))

/-- Whether the imports of a world bind the names that their statements are read as. -/
def World.BindsAsWritten (world : World) : Prop :=
  ∀ statement names, world.imports statement = some names → names = boundNames statement

theorem World.closed_bindsAsWritten : World.closed.BindsAsWritten := nofun

/-- An import statement binds the names that it is read as. -/
theorem Imports.names_eq {world : World} (binds : world.BindsAsWritten) {statement : String}
    {bindings : List (String × Binding)} (imports : Imports world statement bindings) :
    bindings.map (·.1) = boundNames statement := by
  rcases imports.cases with ⟨origin, isModule, name, isName, parts, only⟩ | told
  · rw [only, (importParts?_split statement origin name parts).1]
    exact (Source.boundNames_from origin name (open_paths origin (List.mem_append_left _ isModule))
      (open_paths name (List.mem_append_right _ isName))).symm
  · exact binds statement _ told

/-- A statement that is made of a path and a name is read as these, if it is read as a name without
blanks. -/
theorem importParts?_from (path last origin name : String) (plain : ' ' ∉ name.toList)
    (given : importParts? ("from " ++ path ++ " import " ++ last) = some (origin, name)) :
    path = origin ∧ last = name := by
  obtain ⟨same, isModule⟩ := importParts?_split _ origin name given
  have letters := congrArg String.toList same
  simp only [String.toList_append, List.append_assoc] at letters
  have rest := List.append_cancel_left letters
  -- As many blanks as stand in the one statement stand in the other.
  have blanks := congrArg (List.count ' ') rest
  simp only [List.count_append, List.count_eq_zero.mpr plain, List.count_eq_zero.mpr isModule]
    at blanks
  have isPath : ' ' ∉ path.toList := List.count_eq_zero.mp (by omega)
  have split : Text.SplitsAt ' ' (path ++ " import " ++ last) path ("import " ++ last) :=
    ⟨by simp [String.toList_append], isPath⟩
  have split' : Text.SplitsAt ' ' (path ++ " import " ++ last) origin ("import " ++ name) :=
    ⟨by simpa [String.toList_append] using rest, isModule⟩
  obtain ⟨rfl, behind⟩ := split.unique split'
  exact ⟨rfl, (String.append_right_inj "import ").mp behind⟩

end Model

/-! ## Import tables -/

/-- Whether a target is a path with a point in front of its last part. -/
def IsDottedPath (target : String) : Prop :=
  ∃ path last, target = path ++ "." ++ last ∧ Source.IsPath path ∧ Source.IsPath last ∧
    '.' ∉ last.toList

namespace ImportTable

/-- Whether the statement that each name is registered with binds the name. An empty statement
stands for none. -/
def IsTruthful (table : ImportTable) : Prop :=
  ∀ entry ∈ table.entries, entry.2 = "" ∨ Source.boundNames entry.2 = [entry.1]

theorem initial_isTruthful : initial.IsTruthful := by
  unfold IsTruthful
  decide +kernel

/-- A dotted target is written as its last part. -/
theorem resolve_dotted (table : ImportTable) (path last : String) (isLast : '.' ∉ last.toList) :
    table.resolve (path ++ "." ++ last) = (last, some ("from " ++ path ++ " import " ++ last)) := by
  have split : Text.splitLast '.' (path ++ "." ++ last) = some (path, last) :=
    (Text.splitLast_iff _ _ _ _).mpr ⟨by simp [String.toList_append], isLast⟩
  rw [resolve, split]
  rfl

/-- A target that needs an import is a dotted path or registered. -/
theorem resolve_cases (table : ImportTable) (target statement : String)
    (needed : (table.resolve target).2 = some statement) :
    (∃ path last, '.' ∉ last.toList ∧ target = path ++ "." ++ last) ∨
      (target, statement) ∈ table.entries ∧ (table.resolve target).1 = target := by
  unfold resolve at needed ⊢
  cases split : Text.splitLast '.' target with
  | some parts =>
    obtain ⟨joined, isLast⟩ := (Text.splitLast_iff _ _ _ _).mp split
    exact .inl ⟨parts.1, parts.2, isLast, String.toList_inj.mp
      (joined.trans (by simp [String.toList_append]))⟩
  | none =>
    rw [split] at needed
    dsimp only at needed
    split at needed
    · cases needed
    · exact .inr ⟨findKey?_mem _ _ _ needed, rfl⟩

/-- A target whose import can be loaded is written as the name that the import binds. What the world
imports is written so as well, if the target is a dotted path or has no point. -/
theorem IsTruthful.resolve_eq {table : ImportTable} (truthful : table.IsTruthful)
    {world : Model.World} (binds : world.BindsAsWritten) (target statement : String)
    (bindings : List (String × Model.Binding))
    (needed : (table.resolve target).2 = some statement) (something : statement ≠ "")
    (loads : Model.importBindings world statement = .ok bindings)
    (plain : world.imports statement = none ∨ '.' ∉ target.toList ∨ IsDottedPath target) :
    bindings.map (·.1) = [(table.resolve target).1] := by
  have imports := Model.importBindings_ok loads
  rcases table.resolve_cases target statement needed with
    ⟨path, last, isLast, rfl⟩ | ⟨registered, written⟩
  · rw [resolve_dotted _ path last isLast] at needed ⊢
    cases needed
    rcases imports.cases with ⟨origin, -, name, isName, parts, only⟩ | told
    -- What is read from the statement of a dotted path are its two parts, since nothing that is
    -- known has blanks.
    · have isPath := Model.open_paths name (List.mem_append_right _ isName)
      rw [only, (Model.importParts?_from path last origin name isPath.no_blank parts).2]
    · rcases plain with untold | noPoint | ⟨path', last', same, isPath, isName, isLast'⟩
      · cases untold.symm.trans told
      · simp [String.toList_append] at noPoint
      · have split := (Text.splitLast_iff '.' (path ++ "." ++ last) path last).mpr
          ⟨by simp [String.toList_append], isLast⟩
        have split' := (Text.splitLast_iff '.' (path ++ "." ++ last) path' last').mpr
          ⟨by simp [same, String.toList_append], isLast'⟩
        cases split.symm.trans split'
        rw [imports.names_eq binds]
        exact Source.boundNames_from path last isPath isName
  · rcases truthful _ registered with none | own
    · exact absurd none something
    · rw [imports.names_eq binds, own, written]

end ImportTable

end GraphQLModels
