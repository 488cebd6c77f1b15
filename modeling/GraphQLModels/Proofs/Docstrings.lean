import GraphQLModels.Proofs.Lines
import GraphQLModels.Text.Docstring
import Mathlib.Tactic.Tauto

/-!
# Docstrings

A description stands between triple quotes, escaped and indented. It is escaped before its lines are
put together again, so the last character that is escaped need not be the last one of the literal: a
carriage return at the end is dropped, and quotes in front of it join the closing ones.
-/

namespace GraphQLModels.Text

/-! ## The literal and its end -/

/-- What stands behind a literal of three quotes, read from behind the opening ones: up to the first
three quotes in a row, where a backslash takes the next character with it. -/
def afterClosing : List Char → Option (List Char)
  | '\\' :: _ :: rest => afterClosing rest
  | '"' :: '"' :: '"' :: rest => some rest
  | _ :: rest => afterClosing rest
  | [] => none

def quotesAtEnd (cs : List Char) : Nat := (cs.reverse.takeWhile (· == '"')).length

/-- How many quotes of a description the closing ones join: those in front of a carriage return at
the end, but for the runs of three that are escaped. -/
def joiningQuotes (description : String) : Nat :=
  let cs := dropEndWhile (· == '\n') description.toList
  if cs.getLast? = some '\r' then quotesAtEnd cs.dropLast % 3 else 0

/-- Whether a text leaves a literal open that ends in some quotes so far, and in how many it ends
then. Only backslashes and quotes are escaped. -/
inductive LeavesOpen : Nat → List Char → Nat → Prop
  | nil (quotes : Nat) : LeavesOpen quotes [] quotes
  | quote {quotes last : Nat} {rest : List Char} (few : quotes < 2)
      (open' : LeavesOpen (quotes + 1) rest last) : LeavesOpen quotes ('"' :: rest) last
  | escape {c : Char} {quotes last : Nat} {rest : List Char} (escaped : c = '\\' ∨ c = '"')
      (open' : LeavesOpen 0 rest last) : LeavesOpen quotes ('\\' :: c :: rest) last
  | other {c : Char} {quotes last : Nat} {rest : List Char} (noQuote : c ≠ '"')
      (noBackslash : c ≠ '\\') (open' : LeavesOpen 0 rest last) : LeavesOpen quotes (c :: rest) last

theorem LeavesOpen.append {quotes between last : Nat} {cs rest : List Char}
    (first : LeavesOpen quotes cs between) (second : LeavesOpen between rest last) :
    LeavesOpen quotes (cs ++ rest) last := by
  induction first with
  | nil => exact second
  | quote few _ ih => exact .quote few (ih second)
  | escape escaped _ ih => exact .escape escaped (ih second)
  | other noQuote noBackslash _ ih => exact .other noQuote noBackslash (ih second)

/-- Fewer than three quotes in front of something else do not close a literal. -/
theorem afterClosing_quotes (quotes : Nat) (few : quotes < 3) (c : Char) (rest : List Char)
    (noQuote : c ≠ '"') :
    afterClosing (List.replicate quotes '"' ++ c :: rest) = afterClosing (c :: rest) := by
  match quotes, few with
  | 0, _ => rfl
  | 1, _ | 2, _ => simp [List.replicate, afterClosing, noQuote]

theorem afterClosing_escape (quotes : Nat) (few : quotes < 3) (c : Char) (rest : List Char) :
    afterClosing (List.replicate quotes '"' ++ '\\' :: c :: rest) = afterClosing rest := by
  rw [afterClosing_quotes quotes few _ _ (by decide)]
  rfl

theorem afterClosing_other (quotes : Nat) (few : quotes < 3) (c : Char) (rest : List Char)
    (noQuote : c ≠ '"') (noBackslash : c ≠ '\\') :
    afterClosing (List.replicate quotes '"' ++ c :: rest) = afterClosing rest := by
  rw [afterClosing_quotes quotes few _ _ noQuote, afterClosing]
  · exact fun _ _ backslash => absurd backslash noBackslash
  · exact fun _ quote => absurd quote noQuote

theorem replicate_quote (quotes : Nat) (rest : List Char) :
    List.replicate quotes '"' ++ '"' :: rest = List.replicate (quotes + 1) '"' ++ rest := by
  rw [List.replicate_succ', List.append_assoc]
  rfl

/-- Whether a text leaves a literal open that ends in some quotes so far, and in how many it ends
then, whatever is escaped. -/
inductive StaysOpen : Nat → List Char → Nat → Prop
  | nil (quotes : Nat) : StaysOpen quotes [] quotes
  | quote {quotes last : Nat} {rest : List Char} (few : quotes < 2)
      (open' : StaysOpen (quotes + 1) rest last) : StaysOpen quotes ('"' :: rest) last
  | escape {c : Char} {quotes last : Nat} {rest : List Char} (open' : StaysOpen 0 rest last) :
      StaysOpen quotes ('\\' :: c :: rest) last
  | other {c : Char} {quotes last : Nat} {rest : List Char} (noQuote : c ≠ '"')
      (noBackslash : c ≠ '\\') (open' : StaysOpen 0 rest last) : StaysOpen quotes (c :: rest) last

theorem LeavesOpen.staysOpen {quotes last : Nat} {cs : List Char}
    (leaves : LeavesOpen quotes cs last) : StaysOpen quotes cs last := by
  induction leaves with
  | nil quotes => exact .nil quotes
  | quote few _ ih => exact .quote few ih
  | escape _ _ ih => exact .escape ih
  | other noQuote noBackslash _ ih => exact .other noQuote noBackslash ih

theorem StaysOpen.append {quotes between last : Nat} {cs rest : List Char}
    (first : StaysOpen quotes cs between) (second : StaysOpen between rest last) :
    StaysOpen quotes (cs ++ rest) last := by
  induction first with
  | nil => exact second
  | quote few _ ih => exact .quote few (ih second)
  | escape _ ih => exact .escape (ih second)
  | other noQuote noBackslash _ ih => exact .other noQuote noBackslash (ih second)

/-- What is behind a text that leaves a literal open closes it as the quotes at the end of the text
would have it. -/
theorem StaysOpen.afterClosing_append {quotes last : Nat} {cs : List Char}
    (stays : StaysOpen quotes cs last) (few : quotes < 3) (rest : List Char) :
    afterClosing (List.replicate quotes '"' ++ (cs ++ rest)) =
      afterClosing (List.replicate last '"' ++ rest) := by
  induction stays with
  | nil quotes => rfl
  | @quote quotes last cs less _ ih =>
    rw [List.cons_append, replicate_quote]
    exact ih (by omega)
  | @escape c quotes last cs _ ih =>
    exact (afterClosing_escape quotes few c _).trans (ih (by omega))
  | @other c quotes last cs noQuote noBackslash _ ih =>
    exact (afterClosing_other quotes few c _ noQuote noBackslash).trans (ih (by omega))

/-- Quotes at the end of an open literal close it too early, by as many as they are. -/
theorem LeavesOpen.afterClosing_eq {quotes last : Nat} {cs : List Char}
    (leaves : LeavesOpen quotes cs last) (few : quotes < 3) :
    afterClosing (List.replicate quotes '"' ++ cs ++ ['"', '"', '"']) =
      some (List.replicate last '"') := by
  rw [List.append_assoc, leaves.staysOpen.afterClosing_append few,
    show ['"', '"', '"'] = List.replicate 3 '"' from rfl, ← List.replicate_add]
  rfl

/-! ## The escaped text -/

/-- A text with its backslashes doubled and each run of three quotes escaped, in one pass. -/
def escaped : List Char → List Char
  | '"' :: '"' :: '"' :: rest => '\\' :: '"' :: '\\' :: '"' :: '\\' :: '"' :: escaped rest
  | '\\' :: rest => '\\' :: '\\' :: escaped rest
  | c :: rest => c :: escaped rest
  | [] => []

theorem doubleBackslashes_quote (cs rest : List Char)
    (front : doubleBackslashes cs = '"' :: rest) :
    ∃ after, cs = '"' :: after ∧ doubleBackslashes after = rest := by
  cases cs with
  | nil => cases front
  | cons c after =>
    by_cases backslash : c = '\\'
    · subst backslash
      cases front
    · simp only [doubleBackslashes, List.flatMap_cons, beq_iff_eq, backslash, if_false,
        List.singleton_append, List.cons.injEq] at front
      exact ⟨after, by rw [front.1], by simpa [doubleBackslashes] using front.2⟩

theorem escapeTripleQuotes_doubleBackslashes (cs : List Char) :
    escapeTripleQuotes (doubleBackslashes cs) = escaped cs := by
  fun_induction escaped cs with
  | case1 rest ih => simpa [doubleBackslashes, escapeTripleQuotes] using ih
  | case2 rest ih => simpa [doubleBackslashes, escapeTripleQuotes] using ih
  | case3 c rest noTriple noBackslash ih =>
    have plain : doubleBackslashes (c :: rest) = c :: doubleBackslashes rest := by
      have noBackslash : c ≠ '\\' := noBackslash
      simp [doubleBackslashes, noBackslash]
    rw [plain, escapeTripleQuotes, ih]
    -- The doubled text has no three quotes in front either.
    rintro others rfl two
    obtain ⟨after, rfl, one⟩ := doubleBackslashes_quote rest _ two
    obtain ⟨more, rfl, -⟩ := doubleBackslashes_quote after _ one
    exact noTriple more rfl rfl
  | case4 => rfl

theorem escaped_getLast? (cs : List Char) : (escaped cs).getLast? = cs.getLast? := by
  fun_induction escaped cs with
  | case1 rest ih | case2 rest ih => simp [List.getLast?_cons, ih]
  | case3 c rest _ _ ih => simp [List.getLast?_cons, ih]
  | case4 => rfl

theorem mem_escaped (cs : List Char) (c : Char) (member : c ∈ escaped cs) :
    c ∈ cs ∨ c = '\\' ∨ c = '"' := by
  fun_induction escaped cs with
  | case1 rest ih =>
    simp only [List.mem_cons] at member ⊢
    tauto
  | case2 rest ih =>
    simp only [List.mem_cons] at member ⊢
    tauto
  | case3 d rest _ _ ih =>
    simp only [List.mem_cons] at member ⊢
    tauto
  | case4 => cases member

theorem escaped_return (cs : List Char) : escaped (cs ++ ['\r']) = escaped cs ++ ['\r'] := by
  fun_induction escaped cs with
  | case1 rest ih | case2 rest ih => simpa [escaped] using ih
  | case3 c rest noTriple noBackslash ih =>
    rw [List.cons_append, escaped, ih]
    · rfl
    · rintro others rfl two
      rcases rest with _ | ⟨a, _ | ⟨b, more⟩⟩ <;> simp at two
      obtain ⟨rfl, rfl, -⟩ := two
      exact noTriple more rfl rfl
    · exact noBackslash
  | case4 => rfl

/-- The quotes at the end of a text stand behind its last other character. -/
theorem quotesAtEnd_append_cons (before rest : List Char) (c : Char) (noQuote : c ≠ '"') :
    quotesAtEnd (before ++ c :: rest) = quotesAtEnd rest := by
  have stop : (c :: before.reverse).takeWhile (· == '"') = [] := by simp [noQuote]
  rw [quotesAtEnd, List.reverse_append, List.reverse_cons, List.append_assoc,
    List.singleton_append, List.takeWhile_append, stop, List.append_nil, quotesAtEnd]
  split
  · rename_i all
    rw [all]
  · rfl

theorem quotesAtEnd_replicate (quotes : Nat) : quotesAtEnd (List.replicate quotes '"') = quotes := by
  simp [quotesAtEnd]

/-- Three quotes more in front make no difference to how many are not escaped. -/
theorem quotesAtEnd_triple (rest : List Char) :
    quotesAtEnd ('"' :: '"' :: '"' :: rest) % 3 = quotesAtEnd rest % 3 := by
  have reversed : ('"' :: '"' :: '"' :: rest).reverse = rest.reverse ++ ['"', '"', '"'] := by simp
  rw [quotesAtEnd, reversed, List.takeWhile_append]
  split
  · rename_i all
    rw [quotesAtEnd, all]
    simp
  · rfl

/-- An escaped text leaves a literal open and ends in the quotes at its end that are not escaped,
unless three quotes in a row begin before it. -/
theorem escaped_leavesOpen (cs : List Char) (quotes : Nat) (few : quotes < 3)
    (noTriple : quotes = 0 ∨ ∀ rest, List.replicate quotes '"' ++ cs ≠ '"' :: '"' :: '"' :: rest) :
    LeavesOpen quotes (escaped cs) (quotesAtEnd (List.replicate quotes '"' ++ cs) % 3) := by
  -- A quote that is not escaped is counted on in the rest of the text.
  fun_induction escaped cs generalizing quotes with
  | case1 rest ih =>
    have none : quotes = 0 := by
      refine noTriple.resolve_right fun noTriple => ?_
      match quotes, few with
      | 0, _ | 1, _ | 2, _ => exact noTriple _ rfl
    subst none
    have open' := ih 0 few (.inl rfl)
    rw [List.replicate_zero, List.nil_append, quotesAtEnd_triple]
    exact .escape (.inr rfl) (.escape (.inr rfl) (.escape (.inr rfl) open'))
  | case2 rest ih =>
    rw [quotesAtEnd_append_cons _ rest _ (by decide)]
    exact .escape (.inl rfl) (ih 0 (by decide) (.inl rfl))
  | case3 c rest noTriple' noBackslash ih =>
    by_cases quote : c = '"'
    · subst quote
      have whole : List.replicate quotes '"' ++ '"' :: rest =
          List.replicate (quotes + 1) '"' ++ rest := by
        rw [List.replicate_succ']
        simp
      rw [whole] at noTriple ⊢
      have less : quotes < 2 := by
        refine Nat.lt_of_le_of_ne (Nat.le_of_lt_succ few) ?_
        rintro rfl
        exact noTriple.elim nofun fun noTriple => noTriple rest rfl
      refine .quote less (ih (quotes + 1) (by omega) (.inr fun others => ?_))
      rcases noTriple with rfl | noTriple
      · rintro triple
        exact noTriple' others rfl (List.cons.inj triple).2
      · exact noTriple others
    · rw [quotesAtEnd_append_cons _ rest _ quote]
      exact .other quote noBackslash (ih 0 (by decide) (.inl rfl))
  | case4 =>
    rw [List.append_nil, quotesAtEnd_replicate, Nat.mod_eq_of_lt few]
    exact .nil quotes

/-! ## The indented text -/

def margin : List Char := [' ', ' ', ' ', ' ']

/-- A text with its lines indented, given whether a line has just begun. A carriage return at the
end belongs to a line break that is left out. -/
def indented (front : Bool) : List Char → List Char
  | [] => []
  | ['\r'] => []
  | '\r' :: '\n' :: rest => '\n' :: indented true rest
  | c :: rest =>
    if isLineBreak c then '\n' :: indented true rest
    else (if front then margin else []) ++ c :: indented false rest

/-- Lines behind a first one, each with its break and its margin. -/
def behindFirst (lines : List (List Char)) : List Char :=
  lines.flatMap fun line => '\n' :: if line.isEmpty then [] else margin ++ line

theorem behindFirst_cons (line : List Char) (others : List (List Char)) :
    behindFirst (line :: others) =
      '\n' :: (if line.isEmpty then [] else margin ++ line) ++ behindFirst others :=
  List.flatMap_cons

/-- Within a line nothing is changed. -/
theorem indented_cons (front : Bool) (c : Char) (rest : List Char) (within : isLineBreak c = false) :
    indented front (c :: rest) = (if front then margin else []) ++ c :: indented false rest := by
  have noReturn : c ≠ '\r' := by
    rintro rfl
    cases within
  rw [indented, within]
  · rfl
  · exact fun return' => absurd return' noReturn
  · exact fun _ return' => absurd return' noReturn

/-- The lines of a text whose last line is ended, given what is read of the first one: put together
again, with the first one as it is or with a margin too, they are the indented text. -/
structure JoinsTo (lines : List (List Char)) (current cs : List Char) : Prop where
  asFirst : ∃ first others, lines = first :: others ∧
    first ++ behindFirst others = current.reverse ++ indented false cs
  asLater : behindFirst lines =
    '\n' :: if current.isEmpty then indented true cs
      else margin ++ (current.reverse ++ indented false cs)

/-- A first line that is complete is followed by the others. -/
theorem joinsTo_complete (current cs : List Char) (others : List (List Char))
    (same : ∀ front, indented front cs = behindFirst others) :
    JoinsTo (current.reverse :: others) current cs := by
  refine ⟨⟨_, _, rfl, by rw [same]⟩, ?_⟩
  rw [behindFirst_cons, same, same]
  cases current <;> simp [margin]

theorem linesFrom_joinsTo (current cs : List Char) :
    JoinsTo (linesFrom current (cs ++ ['\n'])) current cs := by
  induction current, cs using linesFrom.induct with
  | case1 current | case2 current => exact joinsTo_complete current [] [] fun _ => rfl
  | case3 current rest ih =>
    refine joinsTo_complete current _ (linesFrom [] (rest ++ ['\n'])) fun front => ?_
    rw [indented, ih.asLater]
    rfl
  | case4 current c rest alone breaks ih =>
    by_cases ended : c = '\r' ∧ rest = []
    · obtain ⟨rfl, rfl⟩ := ended
      exact joinsTo_complete current _ [] fun _ => rfl
    · have apart := not_joined ['\n'] alone
        fun return' last => absurd ⟨return', last⟩ ended
      rw [List.cons_append, linesFrom_break _ _ _ breaks apart]
      refine joinsTo_complete current _ (linesFrom [] (rest ++ ['\n'])) fun front => ?_
      rw [indented, if_pos breaks, ih.asLater]
      · rfl
      · exact fun return' last => ended ⟨return', last⟩
      · exact alone
  | case5 current c rest alone breaks ih =>
    have within : isLineBreak c = false := by simpa using breaks
    have plain := fun front => indented_cons front c rest within
    obtain ⟨⟨first, others, lines, asFirst⟩, asLater⟩ := ih
    rw [List.cons_append, linesFrom_within _ _ _ within]
    refine ⟨⟨first, others, lines, ?_⟩, ?_⟩
    · rw [asFirst, plain]
      simp
    · rw [asLater, plain, plain]
      cases current <;> simp

theorem indent_toList (s : String) : (indent s).toList = indented false s.toList := by
  have joined : ∀ (others : List (List Char)) (first : String),
      ("\n".intercalate (first :: (others.map String.ofList).map fun line =>
        if line.isEmpty then "" else "    " ++ line)).toList =
          first.toList ++ behindFirst others := by
    intro others
    induction others with
    | nil =>
      intro first
      rw [List.map_nil, List.map_nil, String.intercalate_singleton]
      exact (List.append_nil _).symm
    | cons line rest ih =>
      intro first
      rw [List.map_cons, List.map_cons, String.intercalate_cons_cons, String.toList_append, ih,
        behindFirst_cons, String.toList_append]
      cases line <;> simp [margin]
  obtain ⟨first, others, lines', asFirst⟩ := (linesFrom_joinsTo [] s.toList).asFirst
  have cut : lines (s ++ "\n") = String.ofList first :: others.map String.ofList := by
    rw [lines, String.toList_append]
    exact congrArg (List.map String.ofList) lines'
  rw [indent, cut]
  dsimp only
  rw [joined, String.toList_ofList, asFirst]
  rfl

/-- No carriage return is left in an indented text. -/
theorem indented_ne_return (front : Bool) (cs : List Char) : '\r' ∉ indented front cs := by
  have noReturn : '\r' ∉ (if front then margin else []) := by
    cases front <;> decide
  fun_induction indented front cs with
  | case1 | case2 => exact List.not_mem_nil
  | case3 front rest ih =>
    rw [List.mem_cons, not_or]
    exact ⟨by decide, ih (by decide)⟩
  | case4 front c rest _ _ breaks ih =>
    rw [List.mem_cons, not_or]
    exact ⟨by decide, ih (by decide)⟩
  | case5 front c rest _ _ within ih =>
    rw [List.mem_append, List.mem_cons, not_or, not_or]
    refine ⟨noReturn, ?_, ih (by decide)⟩
    rintro rfl
    exact within rfl

theorem mem_indented (front : Bool) (cs : List Char) (c : Char) (member : c ∈ indented front cs) :
    c ∈ cs ∨ c = '\n' ∨ c = ' ' := by
  have blank : ∀ front : Bool, c ∈ (if front then margin else []) → c = ' ' := by
    intro front present
    cases front with
    | false => cases present
    | true => simpa [margin] using present
  fun_induction indented front cs with
  | case1 | case2 => cases member
  | case3 front rest ih =>
    rcases List.mem_cons.mp member with rfl | later
    · simp
    · simpa using (ih later).imp_left fun inside => .inr (.inr inside)
  | case4 front d rest _ _ breaks ih =>
    rcases List.mem_cons.mp member with rfl | later
    · simp
    · exact (ih later).imp_left (List.mem_cons_of_mem d)
  | case5 front d rest _ _ within ih =>
    rcases List.mem_append.mp member with first | member
    · exact .inr (.inr (blank front first))
    · rcases List.mem_cons.mp member with rfl | later
      · exact .inl List.mem_cons_self
      · exact (ih later).imp_left (List.mem_cons_of_mem d)

/-- A text without the carriage return at its end, if it has one. -/
def withoutReturn (cs : List Char) : List Char :=
  if cs.getLast? = some '\r' then cs.dropLast else cs

theorem withoutReturn_cons (c : Char) (rest : List Char) (inner : c = '\r' → rest ≠ []) :
    withoutReturn (c :: rest) = c :: withoutReturn rest := by
  cases rest with
  | nil =>
    have noReturn : c ≠ '\r' := fun return' => inner return' rfl
    simp [withoutReturn, noReturn]
  | cons d more =>
    rw [withoutReturn, withoutReturn, List.getLast?_cons_cons, List.dropLast_cons_cons]
    split <;> rfl

/-- What begins with a character without the carriage return begins with it anyway. -/
theorem withoutReturn_eq_cons (cs core : List Char) (c : Char)
    (isCore : withoutReturn cs = c :: core) :
    ∃ rest, cs = c :: rest ∧ withoutReturn rest = core ∧ (c = '\r' → rest ≠ []) := by
  cases cs with
  | nil => cases isCore
  | cons d rest =>
    by_cases inner : d = '\r' → rest ≠ []
    · rw [withoutReturn_cons d rest inner] at isCore
      obtain ⟨rfl, same⟩ := List.cons.inj isCore
      exact ⟨rest, rfl, same, inner⟩
    · simp only [Classical.not_imp, not_not] at inner
      obtain ⟨rfl, rfl⟩ := inner
      cases isCore

theorem LeavesOpen.behindMargin {quotes last : Nat} {cs : List Char} (front : Bool)
    (atFront : front = true → quotes = 0) (leaves : LeavesOpen quotes cs last) :
    LeavesOpen quotes ((if front then margin else []) ++ cs) last := by
  cases front with
  | false => exact leaves
  | true =>
    obtain rfl := atFront rfl
    have blank : LeavesOpen 0 margin 0 := by
      refine .other ?_ ?_ (.other ?_ ?_ (.other ?_ ?_ (.other ?_ ?_ (.nil 0)))) <;> decide
    exact blank.append leaves

/-- Indenting the lines of a text makes no difference to how it leaves a literal open, but for a
carriage return at its end, which is dropped. -/
theorem indented_leavesOpen (front : Bool) (cs core : List Char) (quotes last : Nat)
    (leaves : LeavesOpen quotes core last) (isCore : withoutReturn cs = core)
    (atFront : front = true → quotes = 0) : LeavesOpen quotes (indented front cs) last := by
  induction leaves generalizing cs front with
  | nil quotes =>
    have short : cs = [] ∨ cs = ['\r'] := by
      rcases cs with _ | ⟨c, rest⟩
      · exact .inl rfl
      · by_cases inner : c = '\r' → rest ≠ []
        · rw [withoutReturn_cons c rest inner] at isCore
          cases isCore
        · simp only [Classical.not_imp, not_not] at inner
          exact .inr (by rw [inner.1, inner.2])
    rcases short with rfl | rfl <;> exact .nil quotes
  | quote few _ ih =>
    obtain ⟨rest, rfl, isCore, -⟩ := withoutReturn_eq_cons cs _ _ isCore
    rw [indented_cons front '"' rest (by decide)]
    exact .behindMargin front atFront (.quote few (ih false rest isCore nofun))
  | @escape c _ _ _ escaped _ ih =>
    obtain ⟨rest, rfl, isCore, -⟩ := withoutReturn_eq_cons cs _ _ isCore
    obtain ⟨rest, rfl, isCore, -⟩ := withoutReturn_eq_cons rest _ _ isCore
    have within : isLineBreak c = false := by
      rcases escaped with rfl | rfl <;> decide
    rw [indented_cons front '\\' _ (by decide), indented_cons false c rest within]
    exact .behindMargin front atFront (.escape escaped (ih false rest isCore nofun))
  | @other c _ _ _ noQuote noBackslash _ ih =>
    obtain ⟨rest, rfl, isCore', inner⟩ := withoutReturn_eq_cons cs _ _ isCore
    have feed : ∀ {quotes last rest}, LeavesOpen 0 rest last →
        LeavesOpen quotes ('\n' :: rest) last := .other (by decide) (by decide)
    by_cases breaks : isLineBreak c = true
    · by_cases pair : c = '\r' ∧ ∃ more, rest = '\n' :: more
      · obtain ⟨rfl, more, rfl⟩ := pair
        -- The line feed behind the carriage return is the break of both.
        have open' : LeavesOpen 0 ('\n' :: indented true more) _ :=
          ih false ('\n' :: more) isCore' nofun
        cases open' with
        | other _ _ open' => exact feed open'
      · rw [indented, if_pos breaks]
        · exact feed (ih true rest isCore' fun _ => rfl)
        · exact inner
        · exact fun more return' pair' => pair ⟨return', more, pair'⟩
    · rw [indented_cons front c rest (by simpa using breaks)]
      exact .behindMargin front atFront
        (.other noQuote noBackslash (ih false rest isCore' nofun))

/-! ## The docstring -/

theorem quotesAtEnd_eq_zero (cs : List Char) (noQuote : cs.getLast? ≠ some '"') :
    quotesAtEnd cs = 0 := by
  rw [quotesAtEnd]
  cases reversed : cs.reverse with
  | nil => rfl
  | cons c rest =>
    have other : c ≠ '"' := by
      rintro rfl
      rw [← List.head?_reverse, reversed] at noQuote
      exact noQuote rfl
    simp [other]

/-- Between the quotes, a description leaves the literal open and ends in the quotes that the
closing ones join. -/
theorem docstring_leavesOpen (description : String) :
    LeavesOpen 0 (indent (docstring description)).toList (joiningQuotes description) := by
  rw [indent_toList, docstring, String.toList_ofList, joiningQuotes]
  generalize dropEndWhile (· == '\n') description.toList = cs
  rw [escapeTripleQuotes_doubleBackslashes, escaped_getLast?]
  have leaves : ∀ cs, LeavesOpen 0 (escaped cs) (quotesAtEnd cs % 3) := fun cs =>
    escaped_leavesOpen cs 0 (by decide) (.inl rfl)
  by_cases quote : cs.getLast? = some '"'
  · have noReturn : cs.getLast? ≠ some '\r' := by simp [quote]
    rw [if_neg noReturn, quote]
    refine indented_leavesOpen false _ (escaped cs ++ [' ']) 0 0 ?_ (by simp [withoutReturn]) nofun
    exact (leaves cs).append (.other (by decide) (by decide) (.nil 0))
  · have unpadded : (cs.getLast? == some '"') = false := beq_false_of_ne quote
    rw [unpadded]
    by_cases return' : cs.getLast? = some '\r'
    · obtain ⟨front, rfl⟩ := List.getLast?_eq_some_iff.mp return'
      rw [if_pos return', List.dropLast_concat, escaped_return]
      exact indented_leavesOpen false _ (escaped front) 0 _ (leaves front) (by simp [withoutReturn])
        nofun
    · have noReturn : withoutReturn (escaped cs) = escaped cs := by
        rw [withoutReturn, escaped_getLast?, if_neg return']
      rw [if_neg return']
      refine indented_leavesOpen false _ (escaped cs) 0 0 ?_ noReturn nofun
      have open' := leaves cs
      rwa [quotesAtEnd_eq_zero cs quote] at open'

/-- A description gives a docstring no character that the escapes and the lines do not need. -/
theorem mem_docstring (description : String) (c : Char)
    (member : c ∈ (indent (docstring description)).toList) :
    c ∈ description.toList ∨ c ∈ ['\n', ' ', '\\', '"'] := by
  rw [indent_toList] at member
  rcases mem_indented false _ c member with inside | layout
  · rw [docstring, String.toList_ofList, escapeTripleQuotes_doubleBackslashes] at inside
    have kept : c ∈ escaped (dropEndWhile (· == '\n') description.toList) ∨ c = ' ' := by
      split at inside
      · simpa using inside
      · exact .inl inside
    rcases kept with inside | rfl
    · rcases mem_escaped _ c inside with inside | escape
      · refine .inl (List.mem_reverse.mp ?_)
        exact (List.dropWhile_sublist _).subset (List.mem_reverse.mp inside)
      · exact .inr (by simpa using .inr (.inr escape))
    · simp
  · exact .inr (by simpa using layout.imp_right .inl)

/-- Exactly the quotes that the closing ones join stand behind the literal of a description. -/
theorem afterClosing_docstring (description : String) :
    afterClosing ((indent (docstring description)).toList ++ ['"', '"', '"']) =
      some (List.replicate (joiningQuotes description) '"') := by
  have closed := (docstring_leavesOpen description).afterClosing_eq (by decide)
  rwa [List.replicate_zero, List.nil_append] at closed

end GraphQLModels.Text
