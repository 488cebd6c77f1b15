import GraphQLModels.Identifier
import GraphQLModels.Source.Lexer

/-!
# Expressions of the source

A recognizer for expressions, by recursive descent over tokens. What an expression may be assigned
to depends on its outer shape, so that is all an expression leaves behind.

Every function takes a bound on the depth of the descent first. A step takes a token or a character,
or goes down one of fewer than twenty levels of precedence, so a multiple of the weight of the
tokens is enough.
-/

namespace GraphQLModels.Source

namespace Grammar

/-- The outer shape of an expression. -/
inductive Shape where
  | name
  /-- An attribute or an item of something. -/
  | member
  | group (inner : Shape)
  | tuple (items : List Shape)
  | list (items : List Shape)
  | starred (inner : Shape)
  | named
  | other
deriving Repr, Inhabited

namespace Shape

mutual

/-- Whether something may be assigned to as one of several targets, without a star. -/
def isTarget : Shape → Bool
  | .name | .member => true
  | .group inner => isTarget inner
  | .tuple items | .list items => areStarTargets items
  | _ => false

/-- Whether all items may be assigned to, with or without a star. -/
def areStarTargets : List Shape → Bool
  | [] => true
  | .starred inner :: rest => isTarget inner && areStarTargets rest
  | item :: rest => isTarget item && areStarTargets rest

end

/-- Whether something may be assigned to on its own. -/
def isAssignable : Shape → Bool
  | .starred inner => inner.isTarget
  | s => s.isTarget

/-- Whether something may be annotated or updated in place. -/
def isSingle : Shape → Bool
  | .name | .member => true
  | .group inner => inner.isSingle
  | _ => false

mutual

def isDeletable : Shape → Bool
  | .name | .member => true
  | .group inner => isDeletable inner
  | .tuple items | .list items => areDeletable items
  | _ => false

def areDeletable : List Shape → Bool
  | [] => true
  | item :: rest => isDeletable item && areDeletable rest

end

/-- Whether an expression has a star in front. -/
def isStarred : Shape → Bool
  | .starred _ => true
  | _ => false

def isNamed : Shape → Bool
  | .named => true
  | _ => false

end Shape

/-- A list of tokens still to be read. -/
abbrev Tokens := List Token

/-- What a recognizer makes of tokens: a value and the rest, or nothing. -/
abbrev Step (α : Type) := Tokens → Option (α × Tokens)

def sign (text : String) : Tokens → Option Tokens
  | .sign t :: rest => if t == text then some rest else none
  | _ => none

def word (text : String) : Tokens → Option Tokens
  | .word t :: rest => if t == text then some rest else none
  | _ => none

/-- Takes a name that is no keyword. -/
def name : Tokens → Option Tokens
  | .word t :: rest => if keywords.contains t then none else some rest
  | _ => none

def token (expected : Token) : Tokens → Option Tokens
  | t :: rest => if t == expected then some rest else none
  | [] => none

/-- Takes the first sign of a list that is next. -/
def anySign (texts : List String) : Tokens → Option Tokens
  | .sign t :: rest => if texts.contains t then some rest else none
  | _ => none

/-- The signs between operands of arithmetic, which all have operands of one form. -/
def binarySigns : List String :=
  ["+", "-", "*", "/", "//", "%", "@", "<<", ">>", "&", "|", "^", "**"]

def comparisonSigns : List String := ["==", "!=", "<", "<=", ">", ">="]

def updateSigns : List String :=
  ["+=", "-=", "*=", "/=", "//=", "%=", "@=", "<<=", ">>=", "&=", "|=", "^=", "**="]

def comparison : Tokens → Option Tokens
  | .sign t :: rest => if comparisonSigns.contains t then some rest else none
  | .word "in" :: rest => some rest
  | .word "not" :: .word "in" :: rest => some rest
  | .word "is" :: .word "not" :: rest => some rest
  | .word "is" :: rest => some rest
  | _ => none

/-- Whether a token may begin an expression, a star before it included. -/
def beginsExpression : Tokens → Bool
  | .word t :: _ =>
    !keywords.contains t || ["True", "False", "None", "not", "lambda", "await"].contains t
  | .number _ :: _ => true
  | .literal _ _ :: _ => true
  | .sign t :: _ => ["(", "[", "\x7b", "+", "-", "~", "*", "..."].contains t
  | _ => false

/-- Whether literals that stand side by side may be joined: bytes do not mix with texts. -/
def joinable (first : LiteralStart) : Tokens → Bool
  | .literal start _ :: _ => (first.kind == .bytes) == (start.kind == .bytes)
  | _ => true

/-- What a list of parameters has had so far. -/
structure Parameters where
  /-- Whether a star has come, after which parameters are given by name. -/
  byName : Bool := false
  withDefault : Bool := false
  slash : Bool := false
  count : Nat := 0
  /-- Whether a bare star still needs a parameter. -/
  pending : Bool := false

/-- What a list of arguments has had so far. -/
structure Arguments where
  keyword : Bool := false
  mapping : Bool := false
  count : Nat := 0

/-- Where the text of an expression in a formatted literal ends: before a conversion, a format, an
equals sign or the closing brace outside of all brackets and quotes. Gives the text and the rest. -/
def replacementText (seen brackets : List Char) (quote : Option (Char × Bool)) :
    List Char → Option (List Char × List Char)
  | [] => none
  | '\\' :: _ => none
  | c :: rest =>
    match quote with
    | some (q, triple) =>
      if c == q && triple then
        match rest with
        | a :: b :: more =>
          if a == q && b == q then replacementText (b :: a :: c :: seen) brackets none more
          else replacementText (c :: seen) brackets quote (a :: b :: more)
        | _ => none
      else if c == q then replacementText (c :: seen) brackets none rest
      else replacementText (c :: seen) brackets quote rest
    | none =>
      if c == '"' || c == '\'' then
        match rest with
        | a :: b :: more =>
          if a == c && b == c then
            replacementText (b :: a :: c :: seen) brackets (some (c, true)) more
          else replacementText (c :: seen) brackets (some (c, false)) (a :: b :: more)
        | short => replacementText (c :: seen) brackets (some (c, false)) short
      else if c == '#' then none
      else
        match closingOf? c with
        | some closing => replacementText (c :: seen) (closing :: brackets) none rest
        | none =>
          if brackets.isEmpty then
            if ['!', ':', '\x7d', '=', '<', '>'].contains c then
              match rest with
              | d :: more =>
                if d == '=' && ['!', '=', '<', '>'].contains c then
                  replacementText (d :: c :: seen) brackets none more
                else if c == '<' || c == '>' then
                  replacementText (c :: seen) brackets none (d :: more)
                else some (seen.reverse, c :: rest)
              | [] =>
                if c == '<' || c == '>' then none else some (seen.reverse, c :: rest)
            else if isClosing c then none
            else replacementText (c :: seen) brackets none rest
          else if isClosing c then
            match brackets with
            | closing :: more =>
              if closing == c then replacementText (c :: seen) more none rest else none
            | [] => none
          else replacementText (c :: seen) brackets none rest
termination_by cs => cs.length

/-- What follows the text of an expression in a formatted literal: an equals sign and blanks, then a
conversion. -/
def replacementTail (cs : List Char) : Option (List Char) :=
  let cs := match cs with
    | '=' :: rest => rest.dropWhile fun c => c == ' ' || ('\t' ≤ c && c ≤ '\r')
    | cs => cs
  match cs with
  | '!' :: c :: rest => if c == 'r' || c == 's' || c == 'a' then some rest else none
  | '!' :: [] => none
  | cs => some cs

/-- Takes what is between braces after the mark of a named character. -/
def skipCharacterName : List Char → List Char
  | '\x7b' :: rest => (rest.dropWhile (· != '\x7d')).drop 1
  | cs => cs

mutual

/-- A conditional expression, a function without a name, or a disjunction. -/
def expression : Nat → Step Shape
  | 0, _ => none
  | n + 1, ts =>
    match ts with
    | .word "lambda" :: rest => do
      let rest ← parameters n false {} rest
      let (_, rest) ← expression n (← sign ":" rest)
      return (.other, rest)
    | _ => do
      let (shape, rest) ← disjunction n ts
      match word "if" rest with
      | none => return (shape, rest)
      | some rest =>
        let (_, rest) ← disjunction n rest
        let (_, rest) ← expression n (← word "else" rest)
        return (.other, rest)

/-- An expression that may give its value a name. -/
def namedExpression : Nat → Step Shape
  | 0, _ => none
  | n + 1, ts =>
    match (name ts).bind (sign ":=") with
    | some rest => do
      let (_, rest) ← expression n rest
      return (.named, rest)
    | none => do
      let (shape, rest) ← expression n ts
      if (sign ":=" rest).isSome then none else return (shape, rest)

def disjunction : Nat → Step Shape
  | 0, _ => none
  | n + 1, ts => do
    let (shape, rest) ← inversion n ts
    match (word "or" rest).orElse fun _ => word "and" rest with
    | none => return (shape, rest)
    | some rest =>
      let (_, rest) ← disjunction n rest
      return (.other, rest)

def inversion : Nat → Step Shape
  | 0, _ => none
  | n + 1, ts =>
    match word "not" ts with
    | some rest => do
      let (_, rest) ← inversion n rest
      return (.other, rest)
    | none => comparisons n ts

def comparisons : Nat → Step Shape
  | 0, _ => none
  | n + 1, ts => do
    let (shape, rest) ← arithmetic n ts
    match comparison rest with
    | none => return (shape, rest)
    | some rest =>
      let (_, rest) ← comparisons n rest
      return (.other, rest)

def arithmetic : Nat → Step Shape
  | 0, _ => none
  | n + 1, ts => do
    let (shape, rest) ← factor n ts
    match anySign binarySigns rest with
    | none => return (shape, rest)
    | some rest =>
      let (_, rest) ← arithmetic n rest
      return (.other, rest)

/-- An operand of arithmetic, perhaps with signs in front. -/
def factor : Nat → Step Shape
  | 0, _ => none
  | n + 1, ts =>
    match anySign ["+", "-", "~"] ts with
    | some rest => do
      let (_, rest) ← factor n rest
      return (.other, rest)
    | none =>
      match word "await" ts with
      | some rest => do
        let (_, rest) ← primary n rest
        return (.other, rest)
      | none => primary n ts

/-- An atom with attributes, items and calls behind it. -/
def primary : Nat → Step Shape
  | 0, _ => none
  | n + 1, ts => do
    let (shape, rest) ← atom n ts
    trailers n shape rest

/-- The attributes, items and calls behind something. -/
def trailers : Nat → Shape → Step Shape
  | 0, _, _ => none
  | n + 1, shape, ts =>
    match ts with
    | .sign "." :: rest => do trailers n .member (← name rest)
    | .sign "(" :: rest => do trailers n .other (← arguments n true {} rest)
    | .sign "[" :: rest => do trailers n .member (← slices n rest)
    | _ => some (shape, ts)

/-- A name, a literal, or something in brackets. -/
def atom : Nat → Step Shape
  | 0, _ => none
  | n + 1, ts =>
    match ts with
    | .word t :: rest =>
      if ["True", "False", "None"].contains t then some (.other, rest)
      else if keywords.contains t then none
      else some (.name, rest)
    | .number _ :: rest => some (.other, rest)
    | .literal start body :: rest => do
      let rest ← literals n start body rest
      return (.other, rest)
    | .sign "..." :: rest => some (.other, rest)
    | .sign "(" :: rest => parenthesised n rest
    | .sign "[" :: rest => bracketed n rest
    | .sign "\x7b" :: rest => do
      let rest ← braced n rest
      return (.other, rest)
    | _ => none

/-- A literal and those that follow it directly. -/
def literals : Nat → LiteralStart → List Char → Tokens → Option Tokens
  | 0, _, _, _ => none
  | n + 1, start, body, rest =>
    if !joinable start rest then none
    else if start.kind == .formatted && !(formatted n start.raw 0 body).any List.isEmpty then none
    else
      match rest with
      | .literal next body :: rest => literals n next body rest
      | _ => some rest

/-- The text of a formatted literal: doubled braces stand for themselves outside of a format, and a
single one opens an expression. Inside a format a closing brace ends the text. -/
def formatted : Nat → Bool → Nat → List Char → Option (List Char)
  | 0, _, _, _ => none
  | n + 1, raw, nested, cs =>
    match cs with
    | [] => some []
    | '\x7b' :: rest =>
      if nested = 0 && rest.head? == some '\x7b' then formatted n raw nested (rest.drop 1)
      else if nested ≥ 2 then none
      else do
        let (text, rest) ← replacementText [] [] none rest
        let inner ← tokens? (String.ofList ('(' :: text ++ [')']))
        let (_, left) ← expressionList n inner
        if left != [.newline] || text.all (fun c => c == ' ' || ('\t' ≤ c && c ≤ '\r')) then none
        match ← replacementTail rest with
        | '\x7d' :: rest => formatted n raw nested rest
        | ':' :: rest =>
          match ← formatted n raw (nested + 1) rest with
          | '\x7d' :: rest => formatted n raw nested rest
          | _ => none
        | _ => none
    | '\x7d' :: rest =>
      if nested ≠ 0 then some cs
      else if rest.head? == some '\x7d' then formatted n raw nested (rest.drop 1)
      else none
    | '\\' :: 'N' :: rest =>
      if raw then formatted n raw nested rest
      else if beginsWithName rest then formatted n raw nested (skipCharacterName rest)
      else none
    | '\\' :: c :: rest =>
      if raw then formatted n raw nested (c :: rest)
      else if escapesHold false ('\\' :: c :: rest.take 8) then
        formatted n raw nested (if c == '\x7b' || c == '\x7d' then c :: rest else rest)
      else none
    | _ :: rest => formatted n raw nested rest

/-- What follows an opening parenthesis, up to the one that closes it. -/
def parenthesised : Nat → Step Shape
  | 0, _ => none
  | n + 1, ts =>
    match ts with
    | .sign ")" :: rest => some (.tuple [], rest)
    | .word "yield" :: _ => do
      let rest ← yielded n ts
      return (.other, ← sign ")" rest)
    | _ => do
      let (first, rest) ← element n ts
      match comprehension n rest with
      | some rest => if first.isStarred then none else return (.other, ← sign ")" rest)
      | none =>
        match sign "," rest with
        | some rest =>
          let (more, rest) ← elements n ")" rest
          return (.tuple (first :: more), rest)
        | none => if first.isStarred then none else return (.group first, ← sign ")" rest)

/-- What follows an opening bracket, up to the one that closes it. -/
def bracketed : Nat → Step Shape
  | 0, _ => none
  | n + 1, ts =>
    match ts with
    | .sign "]" :: rest => some (.list [], rest)
    | _ => do
      let (first, rest) ← element n ts
      match comprehension n rest with
      | some rest => if first.isStarred then none else return (.other, ← sign "]" rest)
      | none =>
        match sign "," rest with
        | some rest =>
          let (more, rest) ← elements n "]" rest
          return (.list (first :: more), rest)
        | none => return (.list [first], ← sign "]" rest)

/-- What follows an opening brace, up to the one that closes it. -/
def braced : Nat → Tokens → Option Tokens
  | 0, _ => none
  | n + 1, ts =>
    match ts with
    | .sign "\x7d" :: rest => some rest
    | .sign "**" :: _ => entries n ts
    | _ => do
      let (first, rest) ← element n ts
      match sign ":" rest with
      | some rest =>
        if first.isStarred || first.isNamed then none
        else
          let (_, rest) ← expression n rest
          match comprehension n rest with
          | some rest => sign "\x7d" rest
          | none =>
            match sign "," rest with
            | some rest => entries n rest
            | none => sign "\x7d" rest
      | none =>
        match comprehension n rest with
        | some rest => if first.isStarred then none else sign "\x7d" rest
        | none =>
          match sign "," rest with
          | some rest => return (← elements n "\x7d" rest).2
          | none => sign "\x7d" rest

/-- The entries of a mapping up to its brace. -/
def entries : Nat → Tokens → Option Tokens
  | 0, _ => none
  | n + 1, ts =>
    match sign "\x7d" ts with
    | some rest => some rest
    | none => do
      let rest ← match sign "**" ts with
        | some rest => (arithmetic n rest).map (·.2)
        | none => do
          let (_, rest) ← expression n ts
          let (_, rest) ← expression n (← sign ":" rest)
          pure rest
      match sign "," rest with
      | some rest => entries n rest
      | none => sign "\x7d" rest

/-- An element of a list, perhaps with a star. -/
def element : Nat → Step Shape
  | 0, _ => none
  | n + 1, ts =>
    match sign "*" ts with
    | some rest => do
      let (shape, rest) ← arithmetic n rest
      return (.starred shape, rest)
    | none => namedExpression n ts

/-- The elements up to a closing bracket. -/
def elements : Nat → String → Step (List Shape)
  | 0, _, _ => none
  | n + 1, closing, ts =>
    match sign closing ts with
    | some rest => some ([], rest)
    | none => do
      let (first, rest) ← element n ts
      match sign "," rest with
      | some rest =>
        let (more, rest) ← elements n closing rest
        return (first :: more, rest)
      | none => return ([first], ← sign closing rest)

/-- The clauses of a comprehension, at least one. -/
def comprehension : Nat → Tokens → Option Tokens
  | 0, _ => none
  | n + 1, ts => do
    let ts := (word "async" ts).getD ts
    let (_, rest) ← targets n (← word "for" ts)
    let (_, rest) ← disjunction n (← word "in" rest)
    let rest ← conditions n rest
    return (comprehension n rest).getD rest

def conditions : Nat → Tokens → Option Tokens
  | 0, _ => none
  | n + 1, ts =>
    match word "if" ts with
    | none => some ts
    | some rest => do
      let (_, rest) ← disjunction n rest
      conditions n rest

/-- Targets of an iteration, which all may be assigned to. -/
def targets : Nat → Step Shape
  | 0, _ => none
  | n + 1, ts => do
    let (first, rest) ← target n ts
    match sign "," rest with
    | none => return (first, rest)
    | some rest =>
      if beginsExpression rest then
        let (_, rest) ← targets n rest
        return (.tuple [first], rest)
      else return (.tuple [first], rest)

def target : Nat → Step Shape
  | 0, _ => none
  | n + 1, ts => do
    let (shape, rest) ← match sign "*" ts with
      | some rest => do
        let (shape, rest) ← arithmetic n rest
        pure (Shape.starred shape, rest)
      | none => arithmetic n ts
    if shape.isAssignable then return (shape, rest) else none

/-- The arguments of a call or, without generators, of a class, up to the closing parenthesis. -/
def arguments : Nat → Bool → Arguments → Tokens → Option Tokens
  | 0, _, _, _ => none
  | n + 1, generators, seen, ts =>
    match ts with
    | .sign ")" :: rest => some rest
    | .sign "**" :: rest => do
      let (_, rest) ← expression n rest
      moreArguments n generators { seen with mapping := true, count := seen.count + 1 } rest
    | .sign "*" :: rest =>
      if seen.mapping then none
      else do
        let (_, rest) ← expression n rest
        moreArguments n generators { seen with count := seen.count + 1 } rest
    | _ =>
      match (name ts).bind (sign "=") with
      | some rest => do
        let (_, rest) ← expression n rest
        moreArguments n generators { seen with keyword := true, count := seen.count + 1 } rest
      | none =>
        if seen.keyword || seen.mapping then none
        else do
          let (_, rest) ← namedExpression n ts
          match comprehension n rest with
          | some rest => if generators && seen.count = 0 then sign ")" rest else none
          | none => moreArguments n generators { seen with count := seen.count + 1 } rest

def moreArguments : Nat → Bool → Arguments → Tokens → Option Tokens
  | 0, _, _, _ => none
  | n + 1, generators, seen, ts =>
    match sign "," ts with
    | some rest => arguments n generators seen rest
    | none => sign ")" ts

/-- The slices between brackets, at least one. -/
def slices : Nat → Tokens → Option Tokens
  | 0, _ => none
  | n + 1, ts => do
    let rest ← slice n ts
    match sign "," rest with
    | some rest => if (sign "]" rest).isSome then sign "]" rest else slices n rest
    | none => sign "]" rest

/-- A slice: an index, an index with a star, or bounds with colons between them. -/
def slice : Nat → Tokens → Option Tokens
  | 0, _ => none
  | n + 1, ts =>
    match sign "*" ts with
    | some rest => do
      let (_, rest) ← expression n rest
      return rest
    | none => do
      let (shape, rest) ← match sign ":" ts with
        | some _ => some (Shape.other, ts)
        | none => namedExpression n ts
      match sign ":" rest with
      | none => return rest
      | some rest =>
        if shape.isNamed then none
        else
          let rest := ((expression n rest).map (·.2)).getD rest
          match sign ":" rest with
          | none => return rest
          | some rest => return ((expression n rest).map (·.2)).getD rest

/-- The parameters of a function, up to what closes their list. -/
def parameters : Nat → Bool → Parameters → Tokens → Option Tokens
  | 0, _, _, _ => none
  | n + 1, annotated, seen, ts =>
    match ts with
    | .sign "**" :: rest =>
      if seen.pending then none
      else do
        let rest ← hint n annotated false (← name rest)
        return (sign "," rest).getD rest
    | .sign "/" :: rest =>
      if seen.slash || seen.byName || seen.count = 0 then none
      else moreParameters n annotated { seen with slash := true } rest
    | .sign "*" :: rest =>
      if seen.byName then none
      else
        match name rest with
        | some rest => do
          let rest ← hint n annotated true rest
          moreParameters n annotated { seen with byName := true } rest
        | none => do
          let rest ← sign "," rest
          parameters n annotated { seen with byName := true, pending := true } rest
    | _ =>
      match name ts with
      | none => if seen.pending then none else some ts
      | some rest => do
        let rest ← hint n annotated false rest
        match sign "=" rest with
        | some rest =>
          let (_, rest) ← expression n rest
          moreParameters n annotated
            { seen with withDefault := true, count := seen.count + 1, pending := false } rest
        | none =>
          if seen.withDefault && !seen.byName then none
          else
            moreParameters n annotated { seen with count := seen.count + 1, pending := false } rest

def moreParameters : Nat → Bool → Parameters → Tokens → Option Tokens
  | 0, _, _, _ => none
  | n + 1, annotated, seen, ts =>
    match sign "," ts with
    | some rest => parameters n annotated seen rest
    | none => if seen.pending then none else some ts

/-- The annotation of a parameter, where there may be one; that of a starred one may have a star. -/
def hint : Nat → Bool → Bool → Tokens → Option Tokens
  | 0, _, _, _ => none
  | n + 1, annotated, starred, ts =>
    if !annotated then some ts
    else
      match sign ":" ts with
      | none => some ts
      | some rest =>
        match sign "*" rest with
        | some rest => if starred then (arithmetic n rest).map (·.2) else none
        | none => (expression n rest).map (·.2)

def yielded : Nat → Tokens → Option Tokens
  | 0, _ => none
  | n + 1, ts => do
    let rest ← word "yield" ts
    match word "from" rest with
    | some rest => (expression n rest).map (·.2)
    | none => if beginsExpression rest then (expressionList n rest).map (·.2) else some rest

/-- One expression, or several with commas, which make a tuple; each may have a star. -/
def expressionList : Nat → Step Shape
  | 0, _ => none
  | n + 1, ts => do
    let (first, rest) ← match sign "*" ts with
      | some rest => do
        let (shape, rest) ← arithmetic n rest
        pure (Shape.starred shape, rest)
      | none => expression n ts
    match sign "," rest with
    | none => return (first, rest)
    | some rest =>
      if beginsExpression rest then
        let (more, rest) ← expressionList n rest
        return (.tuple [first, more], rest)
      else return (.tuple [first], rest)

end

end Grammar

end GraphQLModels.Source
