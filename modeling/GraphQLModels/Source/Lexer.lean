import GraphQLModels.Source.Literal
import GraphQLModels.Text.Identifier

/-!
# Cutting the source into tokens

The lexer is a machine that reads one character at a time. What it is in the middle of is its mode;
besides it keeps the indentation of the open blocks, the open brackets and the tokens so far. Since
it is a fold over the characters, reading two texts in a row is reading the second one from the
state in which the first one ends.
-/

namespace GraphQLModels.Source

namespace Lexer

/-- What the lexer is in the middle of. Characters read so far come in reverse. -/
inductive Mode where
  /-- At the front of a line, with its columns by two measures of a tab; a continued line keeps the
  columns of its first part. -/
  | lineStart (column strict : Nat) (kept : Option Nat)
  /-- Between tokens; nothing but a token may follow where a line was continued. -/
  | ready (continued : Bool)
  | comment
  | blankComment
  /-- Behind a backslash, on the way to the columns of a line if they are being measured. -/
  | backslash (columns : Option Nat)
  | word (seen : List Char)
  | number (seen : List Char)
  | sign (seen : List Char)
  /-- Behind one or two quotes that may open a literal of three quotes. -/
  | opening (start : LiteralStart) (quote : Char) (twice : Bool)
  | literal (start : LiteralStart) (quote : Char) (triple : Bool) (seen : List Char)
      (closing : Nat) (escaped : Bool)
deriving DecidableEq, Repr

/-- The state of the lexer. -/
structure State where
  mode : Mode := .lineStart 0 0 none
  /-- The columns of the open blocks, the innermost first. -/
  blocks : List (Nat × Nat) := []
  /-- The brackets that would close the open ones, the innermost first. -/
  brackets : List Char := []
  /-- The tokens so far in reverse. -/
  tokens : List Token := []
deriving DecidableEq, Repr

namespace State

/-- Adds a token and goes on between tokens. -/
def emit (s : State) (t : Token) : State := { s with mode := .ready false, tokens := t :: s.tokens }

def enter (s : State) (mode : Mode) : State := { s with mode }

end State

/-- The most brackets that may be open. -/
def maxBrackets : Nat := 200

/-- The most blocks that may be open. -/
def maxBlocks : Nat := 99

/-- Whether a character begins or goes on with a word; whether those beyond ASCII do is judged when
the word is complete. -/
def isWordChar (c : Char) : Bool := c.isAlphanum || c == '_' || 128 ≤ c.toNat

/-- Closes blocks down to a column, which has to be that of an open block. -/
def closeBlocks (column strict : Nat) (tokens : List Token) :
    List (Nat × Nat) → Option (List (Nat × Nat) × List Token)
  | [] => if column = 0 ∧ strict = 0 then some ([], tokens) else none
  | top :: rest =>
    if column < top.1 then closeBlocks column strict (.dedent :: tokens) rest
    else if column = top.1 ∧ strict = top.2 then some (top :: rest, tokens)
    else none

/-- Opens or closes blocks for a line that begins at a column. -/
def indentTo (s : State) (column strict : Nat) : Option State :=
  let top := s.blocks.head?.getD (0, 0)
  if top.1 < column then
    if top.2 < strict ∧ s.blocks.length < maxBlocks then
      some { s with blocks := (column, strict) :: s.blocks, tokens := .indent :: s.tokens }
    else none
  else
    (closeBlocks column strict s.tokens s.blocks).map fun (blocks, tokens) =>
      { s with blocks, tokens }

/-- Ends a line: inside brackets it goes on. -/
def endLine (s : State) : State :=
  let s := s.enter (.lineStart 0 0 none)
  if s.brackets.isEmpty then { s with tokens := .newline :: s.tokens } else s

def bracket (s : State) (c : Char) : Option State :=
  match closingOf? c with
  | some closing =>
    if s.brackets.length < maxBrackets then
      some { s.emit (.sign (String.singleton c)) with brackets := closing :: s.brackets }
    else none
  | none =>
    match s.brackets with
    | top :: rest =>
      if top == c then some { s.emit (.sign (String.singleton c)) with brackets := rest } else none
    | [] => none

def stepReady (s : State) (c : Char) : Option State :=
  if c == ' ' || c == '\t' || c == '\x0c' then some (s.enter (.ready false))
  else if c == '#' then some (s.enter .comment)
  else if c == '\n' then some (endLine s)
  else if c == '\\' then some (s.enter (.backslash none))
  else if c.isDigit then some (s.enter (.number [c]))
  else if isWordChar c then some (s.enter (.word [c]))
  else if c == '"' || c == '\'' then some (s.enter (.opening ⟨.plain, false⟩ c false))
  else if (closingOf? c).isSome || isClosing c then bracket s c
  else if singleSigns.contains c then some (s.enter (.sign [c]))
  else none

def endWord (s : State) (seen : List Char) : Option State :=
  let cs := seen.reverse
  if cs.all (fun c => c.toNat < 128) || Text.isIdentifier cs then
    some (s.emit (.word (String.ofList cs)))
  else none

/-- Completes a number, and the word that may follow it directly. -/
def endNumber (s : State) (seen : List Char) : Option State := do
  let cs := seen.reverse
  let rest ← afterNumber cs
  if !mayFollowNumber rest then none
  else
    let last := (cs.take (cs.length - rest.length)).getLast?
    let s := s.emit (.number (last == some 'j' || last == some 'J'))
    if rest.isEmpty then some s else endWord s rest.reverse

/-- Completes a sign; two points are two signs, and a mark of exclamation is none. -/
def endSign (s : State) (seen : List Char) : Option State :=
  match seen with
  | ['!'] => none
  | ['.', '.'] => some ((s.emit (.sign ".")).emit (.sign "."))
  | _ => some (s.emit (.sign (String.ofList seen.reverse)))

/-- Completes a literal. Only what a formatted one holds is looked at again. -/
def endLiteral (s : State) (start : LiteralStart) (body : List Char) : Option State :=
  if literalHolds start body then
    some (s.emit (.literal start (if start.kind == .formatted then body else [])))
  else none

/-- Whether a point or a sign goes on with a number: a point after digits alone, a sign after the
mark of an exponent. -/
def extendsNumber (seen : List Char) (c : Char) : Bool :=
  let isPart := fun c : Char => c.isDigit || c == '_'
  if c == '.' then seen.all isPart
  else if c == '+' || c == '-' then
    match seen with
    | e :: rest =>
      (e == 'e' || e == 'E') && rest.any isPart &&
        rest.all (fun c => isPart c || c == '.')
    | [] => false
  else isWordChar c

/-- Whether a character goes on with a sign. -/
def extendsSign (seen : List Char) (c : Char) : Bool :=
  longSigns.contains (String.ofList (c :: seen).reverse)

/-- Reads a character inside a literal. A single line break ends no literal of three quotes; an
escaped character is passed over. -/
def stepLiteral (s : State) (start : LiteralStart) (quote : Char) (triple : Bool)
    (seen : List Char) (closing : Nat) (escaped : Bool) (c : Char) : Option State :=
  let go := fun closing escaped =>
    some (s.enter (.literal start quote triple (c :: seen) closing escaped))
  if escaped then go 0 false
  else if c == '\n' && !triple then none
  else if c == quote then
    if !triple then endLiteral s start seen.reverse
    else if closing = 2 then endLiteral s start (seen.drop 2).reverse
    else go (closing + 1) false
  else go 0 (c == '\\')

/-- The column that counts for a line: that of its first part, unless the first part has none. -/
def keptColumn (kept : Option Nat) (column : Nat) : Nat :=
  match kept with
  | some (n + 1) => n + 1
  | _ => column

/-- Reads a character at the front of a line. -/
def stepLineStart (s : State) (column strict : Nat) (kept : Option Nat) (c : Char) :
    Option State :=
  if c == ' ' then some (s.enter (.lineStart (column + 1) (strict + 1) kept))
  else if c == '\t' then some (s.enter (.lineStart ((column / 8 + 1) * 8) (strict + 1) kept))
  else if c == '\x0c' then some (s.enter (.lineStart 0 0 kept))
  else if c == '\\' then some (s.enter (.backslash (some (keptColumn kept column))))
  else if c == '#' then some (s.enter .blankComment)
  else if c == '\n' then some (s.enter (.lineStart 0 0 none))
  else if s.brackets.isEmpty then do
    stepReady (← indentTo s (keptColumn kept column) (keptColumn kept strict)) c
  else stepReady s c

/-- Reads a character. A token that a character does not go on with is completed, and the character
is read between tokens. -/
def step (s : State) (c : Char) : Option State :=
  match s.mode with
  | .lineStart column strict kept => stepLineStart s column strict kept c
  | .ready _ => stepReady s c
  | .comment => some (if c == '\n' then endLine s else s)
  | .blankComment => some (if c == '\n' then s.enter (.lineStart 0 0 none) else s)
  | .backslash columns =>
    if c != '\n' then none
    else
      match columns with
      | some column => some (s.enter (.lineStart 0 0 (some column)))
      | none => some (s.enter (.ready true))
  | .word seen =>
    if isWordChar c then some (s.enter (.word (c :: seen)))
    else if c == '"' || c == '\'' then
      match LiteralStart.ofLetters? seen.reverse with
      | some start => some (s.enter (.opening start c false))
      | none => do stepReady (← endWord s seen) c
    else do stepReady (← endWord s seen) c
  | .number seen =>
    if extendsNumber seen c then some (s.enter (.number (c :: seen)))
    else do stepReady (← endNumber s seen) c
  | .sign seen =>
    if extendsSign seen c then some (s.enter (.sign (c :: seen)))
    else if c.isDigit && seen.head? == some '.' && seen.length ≤ 2 then
      let s := if seen.length = 2 then s.emit (.sign ".") else s
      some (s.enter (.number [c, '.']))
    else do stepReady (← endSign s seen) c
  | .opening start quote twice =>
    if c == quote then
      if twice then some (s.enter (.literal start quote true [] 0 false))
      else some (s.enter (.opening start quote true))
    else if twice then do stepReady (← endLiteral s start []) c
    else stepLiteral s start quote false [] 0 false c
  | .literal start quote triple seen closing escaped =>
    stepLiteral s start quote triple seen closing escaped c

def run (s : State) : List Char → Option State
  | [] => some s
  | c :: rest => (step s c).bind fun s => run s rest

/-- The tokens at the end of the source, where every bracket has to be closed and no line may be
left to go on. -/
def finish (s : State) : Option (List Token) :=
  match s.mode with
  | .lineStart _ _ none =>
    if s.brackets.isEmpty then
      some (s.tokens.reverse ++ List.replicate s.blocks.length .dedent)
    else none
  | _ => none

end Lexer

/-- Every line break as a line feed. -/
def unifyBreaks : List Char → List Char
  | '\r' :: '\n' :: rest => '\n' :: unifyBreaks rest
  | '\r' :: rest => '\n' :: unifyBreaks rest
  | c :: rest => c :: unifyBreaks rest
  | [] => []

/-- The source with line feeds alone, and with its last line ended. -/
def normalise (source : String) : List Char :=
  let cs := unifyBreaks source.toList
  if cs.getLast? == some '\n' then cs else cs ++ ['\n']

/-- The tokens of a source without null characters. -/
def tokens? (source : String) : Option (List Token) :=
  if source.contains '\x00' then none
  else (Lexer.run {} (normalise source)).bind Lexer.finish

end GraphQLModels.Source
