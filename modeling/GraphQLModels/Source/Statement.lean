import GraphQLModels.Source.Expression

/-!
# Statements of the source

A recognizer for whole sources: simple statements on a line, compound statements with their blocks,
and the patterns of a match.
-/

namespace GraphQLModels.Source

namespace Grammar

/-- Names with commas between them, at least one. -/
def names : Nat → Tokens → Option Tokens
  | 0, _ => none
  | n + 1, ts => do
    let rest ← name ts
    match sign "," rest with
    | some rest => names n rest
    | none => return rest

def dottedName : Nat → Tokens → Option Tokens
  | 0, _ => none
  | n + 1, ts => do
    let rest ← name ts
    match sign "." rest with
    | some rest => dottedName n rest
    | none => return rest

/-- The name that something is bound to, if one is given. -/
def bound (ts : Tokens) : Option Tokens :=
  match word "as" ts with
  | some rest => name rest
  | none => some ts

/-- Modules with commas between them, each perhaps bound to a name. -/
def importedModules : Nat → Tokens → Option Tokens
  | 0, _ => none
  | n + 1, ts => do
    let rest ← bound (← dottedName n ts)
    match sign "," rest with
    | some rest => importedModules n rest
    | none => return rest

/-- Imported names with commas between them; in parentheses a comma may come last. -/
def importedNames : Nat → Bool → Tokens → Option Tokens
  | 0, _, _ => none
  | n + 1, enclosed, ts => do
    let rest ← bound (← name ts)
    match sign "," rest with
    | some rest =>
      if enclosed && (sign ")" rest).isSome then return rest else importedNames n enclosed rest
    | none => return rest

/-- The points in front of a module, and whether there are any. -/
def points : Tokens → Bool × Tokens
  | .sign t :: rest =>
    if t == "." || t == "..." then (true, (points rest).2) else (false, .sign t :: rest)
  | ts => (false, ts)

def importTargets (n : Nat) (ts : Tokens) : Option Tokens :=
  match ts with
  | .sign "*" :: rest => some rest
  | .sign "(" :: rest => do sign ")" (← importedNames n true rest)
  | _ => importedNames n false ts

/-- A yield expression or a list of expressions. -/
def value (n : Nat) (ts : Tokens) : Option (Shape × Tokens) :=
  match word "yield" ts with
  | some _ => (yielded n ts).map fun rest => (.other, rest)
  | none => expressionList n ts

/-- The rest of a chain of assignments, whose last value something else was assigned. -/
def assignments : Nat → Shape → Tokens → Option Tokens
  | 0, _, _ => none
  | n + 1, shape, ts =>
    match sign "=" ts with
    | none => some ts
    | some rest =>
      if shape.isAssignable then do
        let (shape, rest) ← value n rest
        assignments n shape rest
      else none

/-- An expression by itself, an annotation, an update, or an assignment. -/
def expressionStatement (n : Nat) (ts : Tokens) : Option Tokens := do
  let (shape, rest) ← value n ts
  match sign ":" rest with
  | some rest =>
    if !shape.isSingle then none
    else
      let (_, rest) ← expression n rest
      match sign "=" rest with
      | some rest => (value n rest).map (·.2)
      | none => return rest
  | none =>
    match anySign updateSigns rest with
    | some rest => if shape.isSingle then (value n rest).map (·.2) else none
    | none => assignments n shape rest

/-- A list of expressions that may be left out. -/
def optionalList (n : Nat) (ts : Tokens) : Option Tokens :=
  if beginsExpression ts then (expressionList n ts).map (·.2) else some ts

/-- What a statement deletes: targets with commas between them. -/
def deleted (n : Nat) (ts : Tokens) : Option Tokens := do
  let (shape, rest) ← expressionList n ts
  if shape.isDeletable then return rest else none

def simple (n : Nat) (ts : Tokens) : Option Tokens :=
  match ts with
  | .word "pass" :: rest | .word "break" :: rest | .word "continue" :: rest => some rest
  | .word "return" :: rest => optionalList n rest
  | .word "raise" :: rest =>
    if beginsExpression rest then do
      let (_, rest) ← expression n rest
      match word "from" rest with
      | some rest => (expression n rest).map (·.2)
      | none => return rest
    else some rest
  | .word "global" :: rest | .word "nonlocal" :: rest => names n rest
  | .word "del" :: rest => deleted n rest
  | .word "assert" :: rest => do
    let (_, rest) ← expression n rest
    match sign "," rest with
    | some rest => (expression n rest).map (·.2)
    | none => return rest
  | .word "import" :: rest => importedModules n rest
  | .word "from" :: rest => do
    let (relative, rest) := points rest
    let rest ← match word "import" rest with
      | some rest => if relative then some rest else none
      | none => do word "import" (← dottedName n rest)
    importTargets n rest
  | _ => expressionStatement n ts

/-- The simple statements of a line, semicolons between them. -/
def simpleLine : Nat → Tokens → Option Tokens
  | 0, _ => none
  | n + 1, ts => do
    let rest ← simple n ts
    match sign ";" rest with
    | none => token .newline rest
    | some rest =>
      match token .newline rest with
      | some rest => return rest
      | none => simpleLine n rest

/-- A number, perhaps negative; a real one perhaps with an imaginary part. -/
def signedNumber (ts : Tokens) : Option Tokens :=
  match (sign "-" ts).getD ts with
  | .number imaginary :: rest =>
    match anySign ["+", "-"] rest with
    | some rest => if imaginary then none else token (.number true) rest
    | none => some rest
  | _ => none

/-- Whether a name is the pattern that matches anything. -/
def isWildcard : Tokens → Bool
  | .word "_" :: _ => true
  | _ => false

mutual

/-- A pattern, perhaps with alternatives and a name for what it matches. -/
def pattern : Nat → Tokens → Option Tokens
  | 0, _ => none
  | n + 1, ts => do
    let rest ← alternatives n ts
    match word "as" rest with
    | some rest => if isWildcard rest then none else name rest
    | none => return rest

/-- Patterns of which one has to match. -/
def alternatives : Nat → Tokens → Option Tokens
  | 0, _ => none
  | n + 1, ts => do
    let rest ← closedPattern n ts
    match sign "|" rest with
    | some rest => alternatives n rest
    | none => return rest

def closedPattern : Nat → Tokens → Option Tokens
  | 0, _ => none
  | n + 1, ts =>
    match ts with
    | .word "None" :: rest | .word "True" :: rest | .word "False" :: rest => some rest
    | .literal start body :: rest => literals n start body rest
    | .number _ :: _ | .sign "-" :: _ => signedNumber ts
    | .sign "(" :: rest => sequencePattern n ")" rest
    | .sign "[" :: rest => sequencePattern n "]" rest
    | .sign "\x7b" :: rest => mappingPattern n rest
    | _ => do
      let rest ← dottedName n ts
      match sign "(" rest with
      | some rest => classPattern n false rest
      | none => return rest

/-- The patterns of a sequence up to its bracket. -/
def sequencePattern : Nat → String → Tokens → Option Tokens
  | 0, _, _ => none
  | n + 1, closing, ts =>
    match sign closing ts with
    | some rest => some rest
    | none => do
      let rest ← match sign "*" ts with
        | some rest => name rest
        | none => pattern n ts
      match sign "," rest with
      | some rest => sequencePattern n closing rest
      | none =>
        if closing == ")" && (sign "*" ts).isSome then none else sign closing rest

/-- The entries of a mapping pattern up to its brace. -/
def mappingPattern : Nat → Tokens → Option Tokens
  | 0, _ => none
  | n + 1, ts =>
    match ts with
    | .sign "\x7d" :: rest => some rest
    | .sign "**" :: rest => do
      let rest ← if isWildcard rest then none else name rest
      sign "\x7d" ((sign "," rest).getD rest)
    | _ => do
      let rest ← match ts with
        | .word "None" :: rest | .word "True" :: rest | .word "False" :: rest => some rest
        | .literal start body :: rest => literals n start body rest
        | .word _ :: .sign "." :: _ => dottedName n ts
        | _ => signedNumber ts
      let rest ← pattern n (← sign ":" rest)
      match sign "," rest with
      | some rest => mappingPattern n rest
      | none => sign "\x7d" rest

/-- The arguments of a class pattern: those by name come last. -/
def classPattern : Nat → Bool → Tokens → Option Tokens
  | 0, _, _ => none
  | n + 1, byName, ts =>
    match sign ")" ts with
    | some rest => some rest
    | none => do
      let (byName, rest) ← match (name ts).bind (sign "=") with
        | some rest => (pattern n rest).map fun rest => (true, rest)
        | none => if byName then none else (pattern n ts).map fun rest => (false, rest)
      match sign "," rest with
      | some rest => classPattern n byName rest
      | none => sign ")" rest

end

/-- The patterns of a case: one, or a sequence without brackets. -/
def casePatterns : Nat → Tokens → Option Tokens
  | 0, _ => none
  | n + 1, ts => do
    let starred := (sign "*" ts).isSome
    let rest ← match sign "*" ts with
      | some rest => name rest
      | none => pattern n ts
    match sign "," rest with
    | none => if starred then none else return rest
    | some rest =>
      match rest with
      | .sign ":" :: _ | .word "if" :: _ => return rest
      | .sign "*" :: .word _ :: .sign ":" :: _ => return rest.drop 2
      | .sign "*" :: .word _ :: .word "if" :: _ => return rest.drop 2
      | _ => casePatterns n rest

/-- The items of a with statement, up to what closes them. -/
def contextItems : Nat → Bool → Tokens → Option Tokens
  | 0, _, _ => none
  | n + 1, enclosed, ts => do
    let (_, rest) ← expression n ts
    let rest ← match word "as" rest with
      | some rest => (target n rest).map (·.2)
      | none => some rest
    match sign "," rest with
    | some rest =>
      if enclosed && (sign ")" rest).isSome then return rest else contextItems n enclosed rest
    | none => return rest

/-- The head of a with statement: items in parentheses, or else without. -/
def contextHead (n : Nat) (ts : Tokens) : Option Tokens :=
  let enclosed := do
    sign ":" (← sign ")" (← contextItems n true (← sign "(" ts)))
  enclosed.orElse fun _ => do sign ":" (← contextItems n false ts)

/-- The head of a function after its keyword. -/
def functionHead (n : Nat) (ts : Tokens) : Option Tokens := do
  let rest ← parameters n true {} (← sign "(" (← name ts))
  let rest ← sign ")" rest
  let rest ← match sign "->" rest with
    | some rest => (expression n rest).map (·.2)
    | none => some rest
  sign ":" rest

/-- The head of a class after its keyword. -/
def classHead (n : Nat) (ts : Tokens) : Option Tokens := do
  let rest ← name ts
  let rest ← match sign "(" rest with
    | some rest => arguments n false {} rest
    | none => some rest
  sign ":" rest

/-- The head of an iteration after its keyword. -/
def iterationHead (n : Nat) (ts : Tokens) : Option Tokens := do
  let (_, rest) ← targets n ts
  let (_, rest) ← expressionList n (← word "in" rest)
  sign ":" rest

def condition (n : Nat) (ts : Tokens) : Option Tokens := do
  let (_, rest) ← namedExpression n ts
  sign ":" rest

/-- The head of a match statement after its word. -/
def matchHead (n : Nat) (ts : Tokens) : Option Tokens := do
  let (first, rest) ← element n ts
  let rest ← match sign "," rest with
    | some rest => if beginsExpression rest then (elementList n rest) else some rest
    | none => if first.isStarred then none else some rest
  token .indent (← token .newline (← sign ":" rest))
where
  /-- Elements with commas between them. -/
  elementList : Nat → Tokens → Option Tokens
    | 0, _ => none
    | n + 1, ts => do
      let (_, rest) ← element n ts
      match sign "," rest with
      | some rest => if beginsExpression rest then elementList n rest else return rest
      | none => return rest

/-- The head of a case: patterns and perhaps a guard. -/
def caseHead (n : Nat) (ts : Tokens) : Option Tokens := do
  let rest ← casePatterns n (← word "case" ts)
  match word "if" rest with
  | some rest => condition n rest
  | none => sign ":" rest

mutual

def statement : Nat → Tokens → Option Tokens
  | 0, _ => none
  | n + 1, ts =>
    match ts with
    | .word "if" :: rest => do branches n (← block n (← condition n rest))
    | .word "while" :: rest => do otherwise n (← block n (← condition n rest))
    | .word "for" :: rest => do otherwise n (← block n (← iterationHead n rest))
    | .word "with" :: rest => do block n (← contextHead n rest)
    | .word "def" :: rest => do block n (← functionHead n rest)
    | .word "class" :: rest => do block n (← classHead n rest)
    | .word "try" :: rest => do handled n (← block n (← sign ":" rest))
    | .word "async" :: .word "def" :: rest => do block n (← functionHead n rest)
    | .word "async" :: .word "for" :: rest => do otherwise n (← block n (← iterationHead n rest))
    | .word "async" :: .word "with" :: rest => do block n (← contextHead n rest)
    | .sign "@" :: rest => do
      let (_, rest) ← namedExpression n rest
      decorated n (← token .newline rest)
    | .word "match" :: rest =>
      match (matchHead n rest).bind (cases n) with
      | some rest => some rest
      | none => simpleLine n ts
    | _ => simpleLine n ts

def decorated : Nat → Tokens → Option Tokens
  | 0, _ => none
  | n + 1, ts =>
    match ts with
    | .sign "@" :: _ | .word "def" :: _ | .word "class" :: _ => statement n ts
    | .word "async" :: .word "def" :: _ => statement n ts
    | _ => none

/-- The statements of a block, indented below its head or on the same line. -/
def block : Nat → Tokens → Option Tokens
  | 0, _ => none
  | n + 1, ts =>
    match ts with
    | .newline :: .indent :: rest => do statements n (← statement n rest)
    | .newline :: _ => none
    | _ => simpleLine n ts

/-- Statements up to the end of a block. -/
def statements : Nat → Tokens → Option Tokens
  | 0, _ => none
  | n + 1, ts =>
    match ts with
    | .dedent :: rest => some rest
    | _ => do statements n (← statement n ts)

/-- What follows the first branch of a condition. -/
def branches : Nat → Tokens → Option Tokens
  | 0, _ => none
  | n + 1, ts =>
    match word "elif" ts with
    | some rest => do branches n (← block n (← condition n rest))
    | none => otherwise n ts

/-- The block for all other cases, if there is one. -/
def otherwise : Nat → Tokens → Option Tokens
  | 0, _ => none
  | n + 1, ts =>
    match word "else" ts with
    | some rest => do block n (← sign ":" rest)
    | none => some ts

/-- The block that is always run last. -/
def lastBlock : Nat → Tokens → Option Tokens
  | 0, _ => none
  | n + 1, ts => do block n (← sign ":" (← word "finally" ts))

/-- What follows the tried block: handlers, or the block that is run last. -/
def handled : Nat → Tokens → Option Tokens
  | 0, _ => none
  | n + 1, ts =>
    match ts with
    | .word "except" :: .sign "*" :: _ => handlers n true ts
    | .word "except" :: _ => handlers n false ts
    | _ => lastBlock n ts

/-- Handlers of one form, and the blocks behind them. -/
def handlers : Nat → Bool → Tokens → Option Tokens
  | 0, _, _ => none
  | n + 1, grouped, ts =>
    match word "except" ts with
    | none => do
      let rest ← otherwise n ts
      match word "finally" rest with
      | some _ => lastBlock n rest
      | none => return rest
    | some rest => do
      let rest ← match grouped, sign "*" rest with
        | true, some rest => handlerHead n rest
        | true, none => none
        | false, _ =>
          match sign ":" rest with
          | some rest => some rest
          | none => handlerHead n rest
      handlers n grouped (← block n rest)

def handlerHead : Nat → Tokens → Option Tokens
  | 0, _ => none
  | n + 1, ts => do
    let (_, rest) ← expression n ts
    sign ":" (← bound rest)

/-- The cases of a match, at least one, up to the end of its block. -/
def cases : Nat → Tokens → Option Tokens
  | 0, _ => none
  | n + 1, ts => do
    let rest ← block n (← caseHead n ts)
    match rest with
    | .dedent :: rest => return rest
    | _ => cases n rest

end

/-- Statements up to the end of the source. -/
def file : Nat → Tokens → Bool
  | _, [] => true
  | 0, _ => false
  | n + 1, ts =>
    match statement n ts with
    | some rest => file n rest
    | none => false

end Grammar

/-- Whether a text is a source in the generated language. -/
def isWellFormed (source : String) : Bool :=
  match tokens? source with
  | some ts => Grammar.file (20 * (Token.weight ts + 10)) ts
  | none => false

end GraphQLModels.Source
