import GraphQLModels.Json.File
import GraphQLModels.Json.Printer
import GraphQLModels.Proofs.Numerals
import Mathlib.Tactic.SplitIfs

/-!
# Compact texts read back

The compact text of a value is read as the value itself, but for the floating-point numbers that are
not finite: they are written as null. Keys that repeat would be read as one, so the objects of the
value must not repeat any.
-/

namespace GraphQLModels.Json

open Number (Binary64 DecimalStyle)

/-! ## Strings -/

theorem hexDigits_control : ∀ n < 32,
    (match Text.hexDigits 4 n with
      | [a, b, c, d] => hex4? a b c d
      | _ => none) = some n := by
  decide

/-- The three ways in which a character stands in a string. -/
theorem stringChar_cases (c : Char) :
    (∃ letter, stringChar c = ['\\', letter] ∧ letter ≠ 'u' ∧ simpleEscape? letter = some c) ∨
      (stringChar c = '\\' :: 'u' :: Text.hexDigits 4 c.toNat ∧ c.toNat < 0x20) ∨
      (stringChar c = [c] ∧ c ≠ '"' ∧ c ≠ '\\' ∧ ¬c.toNat < 0x20) := by
  unfold stringChar
  simp only [beq_iff_eq]
  -- The tests are gone through in their order, as each is only reached if those before it fail.
  by_cases quote : c = '"'
  · exact .inl ⟨_, if_pos quote, by decide, by rw [quote]; rfl⟩
  rw [if_neg quote]
  by_cases backslash : c = '\\'
  · exact .inl ⟨_, if_pos backslash, by decide, by rw [backslash]; rfl⟩
  rw [if_neg backslash]
  by_cases backspace : c = '\x08'
  · exact .inl ⟨_, if_pos backspace, by decide, by rw [backspace]; rfl⟩
  rw [if_neg backspace]
  by_cases formFeed : c = '\x0c'
  · exact .inl ⟨_, if_pos formFeed, by decide, by rw [formFeed]; rfl⟩
  rw [if_neg formFeed]
  by_cases lineFeed : c = '\n'
  · exact .inl ⟨_, if_pos lineFeed, by decide, by rw [lineFeed]; rfl⟩
  rw [if_neg lineFeed]
  by_cases ret : c = '\r'
  · exact .inl ⟨_, if_pos ret, by decide, by rw [ret]; rfl⟩
  rw [if_neg ret]
  by_cases tab : c = '\t'
  · exact .inl ⟨_, if_pos tab, by decide, by rw [tab]; rfl⟩
  rw [if_neg tab]
  by_cases control : c.toNat < 0x20
  · exact .inr (.inl ⟨if_pos control, control⟩)
  · exact .inr (.inr ⟨if_neg control, quote, backslash, control⟩)

theorem readString_control (c : Char) (seen rest : List Char) (control : c.toNat < 0x20) :
    readString seen ('\\' :: 'u' :: (Text.hexDigits 4 c.toNat ++ rest)) =
      readString (c :: seen) rest := by
  have digits := hexDigits_control c.toNat control
  split at digits
  · rename_i a b e d shape
    have low : ¬(0xd800 ≤ c.toNat && c.toNat < 0xdc00) = true := by
      simp only [Bool.and_eq_true, decide_eq_true_iff]
      omega
    have high : ¬(0xdc00 ≤ c.toNat && c.toNat < 0xe000) = true := by
      simp only [Bool.and_eq_true, decide_eq_true_iff]
      omega
    rw [shape]
    simp only [List.cons_append, List.nil_append]
    rw [readString, digits]
    simp only [if_neg low, if_neg high, Char.ofNat_toNat]
  · contradiction

/-- A character of a string is read back. -/
theorem readString_stringChar (c : Char) (seen rest : List Char) :
    readString seen (stringChar c ++ rest) = readString (c :: seen) rest := by
  rcases stringChar_cases c with ⟨letter, shape, other, escape⟩ | ⟨shape, control⟩ |
    ⟨shape, quote, backslash, control⟩
  · rw [shape]
    simp only [List.cons_append, List.nil_append]
    rw [readString, escape]
    intro a b c d tail equal
    exact absurd equal other
  · rw [shape]
    exact readString_control c seen rest control
  · rw [shape]
    simp only [List.cons_append, List.nil_append]
    rw [readString, if_neg control]
    · exact quote
    · intro a b c d tail equal
      exact absurd equal backslash
    · intro c tail equal
      exact absurd equal backslash

theorem readString_flatMap (cs seen rest : List Char) :
    readString seen (cs.flatMap stringChar ++ '"' :: rest) =
      some (String.ofList (seen.reverse ++ cs), rest) := by
  induction cs generalizing seen with
  | nil =>
    rw [List.flatMap_nil, List.nil_append, readString, List.append_nil]
  | cons c cs ih =>
    rw [List.flatMap_cons, List.append_assoc, readString_stringChar, ih, List.reverse_cons,
      List.append_assoc]
    rfl

theorem stringText_toList (s : String) :
    (stringText s).toList = '"' :: (s.toList.flatMap stringChar ++ ['"']) := by
  rw [stringText, String.toList_ofList]
  rfl

/-- A string is read back. -/
theorem readString_stringText (s : String) (rest : List Char) :
    ∃ tail, (stringText s).toList ++ rest = '"' :: tail ∧ readString [] tail = some (s, rest) := by
  refine ⟨s.toList.flatMap stringChar ++ '"' :: rest, ?_, ?_⟩
  · rw [stringText_toList]
    simp
  · rw [readString_flatMap, List.reverse_nil, List.nil_append, String.ofList_toList]

/-! ## Numbers -/

theorem digit_cons_ne (c other : Char) (tail rest : List Char) (digit : c.isDigit = true)
    (nondigit : other.isDigit = false) : c :: tail ≠ other :: rest := by
  intro equal
  rw [(List.cons.inj equal).1, nondigit] at digit
  exact Bool.false_ne_true digit

theorem readUnsigned_head (negative : Bool) (cs : List Char) (result : Json × List Char)
    (read : readUnsigned negative cs = some result) :
    ∃ c tail, cs = c :: tail ∧ c.isDigit = true := by
  unfold readUnsigned at read
  cases cs with
  | nil => simp [readWhole] at read
  | cons c tail =>
    refine ⟨c, tail, rfl, ?_⟩
    by_contra other
    have none : readWhole (c :: tail) = none := by
      rw [readWhole]
      · simp [other]
      · intro rest equal
        rw [(List.cons.inj equal).1] at other
        exact other rfl
    simp [none] at read

/-- What begins with a digit is read as a number. -/
theorem readValue_digit (fuel : Nat) (c : Char) (tail : List Char) (digit : c.isDigit = true) :
    readValue (fuel + 1) (c :: tail) = readUnsigned false (c :: tail) := by
  rw [readValue]
  all_goals exact fun rest => digit_cons_ne c _ tail _ digit (by decide)

theorem readValue_minus (fuel : Nat) (c : Char) (tail : List Char) (digit : c.isDigit = true) :
    readValue (fuel + 1) ('-' :: c :: tail) = readUnsigned true (c :: tail) := by
  rw [readValue]
  exact fun rest => digit_cons_ne c _ tail _ digit (by decide)

/-- The characters of a number with its sign. -/
def signedText (negative : Bool) (cs : List Char) : List Char :=
  if negative then '-' :: cs else cs

/-- A number whose digits are read after any sign is read as a value. -/
theorem readValue_signedText (fuel : Nat) (negative : Bool) (cs rest : List Char)
    (result : Json × List Char) (read : readUnsigned negative (cs ++ rest) = some result) :
    readValue (fuel + 1) (signedText negative cs ++ rest) = some result := by
  obtain ⟨c, tail, shape, digit⟩ := readUnsigned_head negative _ result read
  cases negative with
  | false =>
    change readValue (fuel + 1) (cs ++ rest) = some result
    rw [shape, readValue_digit fuel c tail digit, ← shape, read]
  | true =>
    change readValue (fuel + 1) ('-' :: (cs ++ rest)) = some result
    rw [shape, readValue_minus fuel c tail digit, ← shape, read]

theorem toString_int_toList (n : Int) :
    (toString n).toList = signedText (n < 0) (Nat.toDigits 10 n.natAbs) := by
  cases n with
  | ofNat n => exact Nat.toList_repr
  | negSucc n =>
    change ("-" ++ Nat.repr (n + 1)).toList = _
    rw [String.toList_append, Nat.toList_repr]
    simp only [Int.negSucc_lt_zero, decide_true, signedText, if_true]
    rfl

theorem readValue_int (fuel : Nat) (n : Int) (rest : List Char) (ends : EndsNumber rest) :
    readValue (fuel + 1) ((toString n).toList ++ rest) = some (.int n, rest) := by
  rw [toString_int_toList]
  apply readValue_signedText
  rw [readUnsigned_toDigits _ _ rest ends]
  congr 3
  by_cases negative : n < 0
  · simp only [negative, decide_true, if_true]
    omega
  · simp only [negative, decide_false, Bool.false_eq_true, if_false]
    omega

/-- The text of a finite number without its sign. -/
def unsignedText (mantissa : Nat) (exponent : Int) : String :=
  if mantissa = 0 then "0.0"
  else DecimalStyle.document.layOut (Binary64.shortest mantissa exponent)

theorem floatText_finite_toList (negative : Bool) (mantissa : Nat) (exponent : Int) :
    (floatText (.finite negative mantissa exponent)).toList =
      signedText negative (unsignedText mantissa exponent).toList := by
  cases negative with
  | false => rfl
  | true =>
    change ("-" ++ unsignedText mantissa exponent).toList = _
    rw [String.toList_append]
    rfl

theorem readUnsigned_unsignedText (negative : Bool) (mantissa : Nat) (exponent : Int)
    (rest : List Char) (canonical : (Binary64.finite negative mantissa exponent).IsCanonical)
    (ends : EndsNumber rest) :
    readUnsigned negative ((unsignedText mantissa exponent).toList ++ rest) =
      some (.float (.finite negative mantissa exponent), rest) := by
  unfold unsignedText
  split
  · rename_i zero
    have smallest : exponent = Binary64.minExponent :=
      canonical.2.2.2.resolve_left (by rw [zero]; norm_num)
    change readUnsigned negative (['0'] ++ '.' :: (['0'] ++ rest)) = _
    rw [readUnsigned_point negative ['0'] ['0'] rest isWhole_zero ⟨by simp, by simp⟩ ends, zero,
      smallest]
    rfl
  · rename_i nonzero
    have mantissa_pos := Nat.pos_of_ne_zero nonzero
    rw [DecimalStyle.readUnsigned_layOut negative _ rest
      (Binary64.shortest_digits_pos mantissa exponent mantissa_pos canonical) ends,
      Binary64.ofDecimal_shortest negative mantissa exponent mantissa_pos canonical]

/-- A finite number is read back. -/
theorem readValue_float (fuel : Nat) (negative : Bool) (mantissa : Nat) (exponent : Int)
    (rest : List Char) (canonical : (Binary64.finite negative mantissa exponent).IsCanonical)
    (ends : EndsNumber rest) :
    readValue (fuel + 1) ((floatText (.finite negative mantissa exponent)).toList ++ rest) =
      some (.float (.finite negative mantissa exponent), rest) := by
  rw [floatText_finite_toList]
  apply readValue_signedText
  exact readUnsigned_unsignedText negative mantissa exponent rest canonical ends

/-! ## Values -/

/-- The number as its text holds it. -/
def writtenFloat : Binary64 → Json
  | .finite negative mantissa exponent => .float (.finite negative mantissa exponent)
  | _ => .null

mutual

/-- The value as its text holds it: numbers that are not finite are null. -/
def written : Json → Json
  | .null => .null
  | .bool b => .bool b
  | .int n => .int n
  | .float x => writtenFloat x
  | .str s => .str s
  | .arr items => .arr (writtenItems items)
  | .obj members => .obj (writtenMembers members)

/-- The items as their texts hold them. -/
def writtenItems : List Json → List Json
  | [] => []
  | item :: rest => written item :: writtenItems rest

/-- The members as their texts hold them. -/
def writtenMembers : List (String × Json) → List (String × Json)
  | [] => []
  | (name, value) :: rest => (name, written value) :: writtenMembers rest

end

mutual

/-- Whether no object of a value repeats a key and every finite number is canonical. -/
def IsProper : Json → Prop
  | .float x => x.IsCanonical
  | .arr items => AreProper items
  | .obj members => (members.map (·.1)).Nodup ∧ MembersAreProper members
  | _ => True

/-- Whether all items are proper. -/
def AreProper : List Json → Prop
  | [] => True
  | item :: rest => item.IsProper ∧ AreProper rest

/-- Whether the values of all members are proper. -/
def MembersAreProper : List (String × Json) → Prop
  | [] => True
  | (_, value) :: rest => value.IsProper ∧ MembersAreProper rest

end

/-- Every value begins with a character that is neither blank nor a bracket that closes. -/
theorem compact_head (value : Json) (proper : value.IsProper) :
    ∃ c tail, (compact value).toList = c :: tail ∧ isSpace c = false ∧ c ≠ ']' := by
  have signed : ∀ (negative : Bool) (cs : List Char) (result : Json × List Char),
      readUnsigned negative (cs ++ []) = some result →
        ∃ c tail, signedText negative cs = c :: tail ∧ isSpace c = false ∧ c ≠ ']' := by
    intro negative cs result read
    rw [List.append_nil] at read
    obtain ⟨c, tail, rfl, digit⟩ := readUnsigned_head negative cs result read
    cases negative with
    | true => exact ⟨'-', c :: tail, rfl, by decide, by decide⟩
    | false =>
      refine ⟨c, tail, rfl, ?_, ?_⟩
      · by_contra space
        simp only [isSpace, Bool.not_eq_false, Bool.or_eq_true, beq_iff_eq] at space
        rcases space with ((rfl | rfl) | rfl) | rfl <;> exact absurd digit (by decide)
      · rintro rfl
        exact absurd digit (by decide)
  cases value with
  | null => exact ⟨'n', _, rfl, by decide, by decide⟩
  | bool b =>
    cases b with
    | true => exact ⟨'t', _, rfl, by decide, by decide⟩
    | false => exact ⟨'f', _, rfl, by decide, by decide⟩
  | int n =>
    -- Whatever is read as a number begins with a digit or a sign.
    rw [compact, toString_int_toList]
    exact signed _ _ _ (readUnsigned_toDigits _ _ [] endsNumber_nil)
  | float x =>
    cases x with
    | finite negative mantissa exponent =>
      rw [compact, floatText_finite_toList]
      exact signed _ _ _
        (readUnsigned_unsignedText negative mantissa exponent [] proper endsNumber_nil)
    | infinite negative =>
      rw [compact, show floatText (.infinite negative) = "null" from rfl]
      exact ⟨'n', _, rfl, by decide, by decide⟩
    | nan => exact ⟨'n', _, rfl, by decide, by decide⟩
  | str s =>
    rw [compact, stringText_toList]
    exact ⟨'"', _, rfl, by decide, by decide⟩
  | arr items =>
    rw [compact, String.toList_append, String.toList_append]
    exact ⟨'[', _, rfl, by decide, by decide⟩
  | obj members =>
    rw [compact, String.toList_append, String.toList_append]
    exact ⟨'\x7b', _, rfl, by decide, by decide⟩

theorem skipSpace_of_head (c : Char) (tail : List Char) (nonblank : isSpace c = false) :
    skipSpace (c :: tail) = c :: tail := by
  rw [skipSpace, List.dropWhile_cons, nonblank]
  rfl

theorem setMember_of_not_mem (name : String) (value : Json) (members : List (String × Json))
    (fresh : name ∉ members.map (·.1)) :
    setMember name value members = members ++ [(name, value)] := by
  induction members with
  | nil => rfl
  | cons member rest ih =>
    obtain ⟨known, old⟩ := member
    simp only [List.map_cons, List.mem_cons, not_or] at fresh
    have other : (known == name) = false := by simpa using fun equal => fresh.1 equal.symm
    rw [setMember, other, ih fresh.2]
    rfl

/-- The compact text of a value is read as the value, what is not finite as null. -/
def ReadsBack (value : Json) : Prop :=
  ∀ (fuel : Nat) (rest : List Char), (compact value).toList.length < fuel → EndsNumber rest →
    readValue fuel ((compact value).toList ++ rest) = some (written value, rest)

theorem compactItems_cons (item : Json) (items : List Json) (others : items ≠ []) :
    (compactItems (item :: items)).toList =
      (compact item).toList ++ ',' :: (compactItems items).toList := by
  cases items with
  | nil => exact absurd rfl others
  | cons next rest =>
    rw [compactItems, String.toList_append, String.toList_append, List.append_assoc]
    rfl

theorem compactMembers_single (name : String) (value : Json) :
    (compactMembers [(name, value)]).toList =
      (stringText name).toList ++ ':' :: (compact value).toList := by
  rw [compactMembers, String.toList_append, String.toList_append, List.append_assoc]
  rfl

theorem compactMembers_cons (name : String) (value : Json) (members : List (String × Json))
    (others : members ≠ []) :
    (compactMembers ((name, value) :: members)).toList =
      (stringText name).toList ++ ':' :: ((compact value).toList ++
        ',' :: (compactMembers members).toList) := by
  cases members with
  | nil => exact absurd rfl others
  | cons next rest =>
    simp only [compactMembers, String.toList_append, List.append_assoc]
    rfl

/-- The text of an item that comes next begins with no blank. -/
theorem skipSpace_compactItems (items : List Json) (rest : List Char) (proper : AreProper items)
    (some_items : items ≠ []) :
    ∃ c tail, (compactItems items).toList ++ rest = c :: tail ∧ c ≠ ']' ∧
      skipSpace ((compactItems items).toList ++ rest) = (compactItems items).toList ++ rest := by
  obtain ⟨item, others, rfl⟩ := List.exists_cons_of_ne_nil some_items
  obtain ⟨c, tail, shape, nonblank, other⟩ := compact_head item proper.1
  have first : ∃ tail, (compactItems (item :: others)).toList = c :: tail := by
    cases others with
    | nil => exact ⟨tail, by rw [compactItems, shape]⟩
    | cons next others =>
      exact ⟨_, by rw [compactItems_cons item _ (by simp), shape, List.cons_append]⟩
  obtain ⟨tail, shape⟩ := first
  rw [shape, List.cons_append]
  exact ⟨c, tail ++ rest, rfl, other, skipSpace_of_head c _ nonblank⟩

theorem readItems_compact (items : List Json) (proper : AreProper items)
    (each : ∀ item ∈ items, ReadsBack item) (fuel : Nat) (seen : List Json) (rest : List Char)
    (some_items : items ≠ []) (enough : (compactItems items).toList.length + 1 < fuel) :
    readItems fuel seen ((compactItems items).toList ++ ']' :: rest) =
      some (.arr (seen.reverse ++ writtenItems items), rest) := by
  -- The induction is on the items, with those that have been read in front.
  induction items generalizing fuel seen with
  | nil => exact absurd rfl some_items
  | cons item others ih =>
    obtain ⟨fuel, rfl⟩ : ∃ n, fuel = n + 1 := ⟨fuel - 1, by omega⟩
    have first := each item (by simp)
    by_cases last : others = []
    · subst last
      rw [compactItems] at enough ⊢
      rw [readItems, first fuel (']' :: rest) (by omega) (endsNumber_cons _ _ (.inr (.inl rfl)))]
      simp [skipSpace, isSpace, writtenItems]
    · rw [compactItems_cons item others last] at enough ⊢
      simp only [List.length_append, List.length_cons] at enough
      rw [List.append_assoc, List.cons_append, readItems,
        first fuel _ (by omega) (endsNumber_cons _ _ (.inl rfl))]
      obtain ⟨c, tail, -, -, nonblank⟩ :=
        skipSpace_compactItems others (']' :: rest) proper.2 last
      dsimp only
      rw [skipSpace_of_head ',' _ (by decide)]
      change readItems fuel (item.written :: seen) (skipSpace _) = _
      obtain ⟨c', tail', shape, -, -⟩ := compact_head item proper.1
      have item_pos : 0 < (compact item).toList.length := by rw [shape]; simp
      rw [nonblank, ih proper.2 (fun i member => each i (by simp [member])) fuel
        (item.written :: seen) last (by omega)]
      simp [writtenItems]

theorem skipSpace_compact (value : Json) (rest : List Char) (proper : value.IsProper) :
    skipSpace ((compact value).toList ++ rest) = (compact value).toList ++ rest := by
  obtain ⟨c, tail, shape, nonblank, -⟩ := compact_head value proper
  rw [shape, List.cons_append]
  exact skipSpace_of_head c _ nonblank

/-- The text of a member that comes next begins with a quote. -/
theorem compactMembers_head (members : List (String × Json)) (rest : List Char)
    (some_members : members ≠ []) :
    ∃ tail, (compactMembers members).toList ++ rest = '"' :: tail := by
  obtain ⟨⟨name, value⟩, others, rfl⟩ := List.exists_cons_of_ne_nil some_members
  by_cases last : others = []
  · rw [last, compactMembers_single, stringText_toList]
    exact ⟨_, rfl⟩
  · rw [compactMembers_cons name value others last, stringText_toList]
    exact ⟨_, rfl⟩

/-- A member is read up to what stands behind its value. -/
theorem readMembers_step (name : String) (value : Json) (proper : value.IsProper)
    (reads : ReadsBack value) (fuel : Nat) (seen : List (String × Json)) (rest : List Char)
    (enough : (compact value).toList.length < fuel) (ends : EndsNumber rest)
    (fresh : name ∉ seen.map (·.1)) :
    readMembers (fuel + 1) seen
        ((stringText name).toList ++ ':' :: ((compact value).toList ++ rest)) =
      match skipSpace rest with
      | ',' :: rest => readMembers fuel (seen ++ [(name, written value)]) (skipSpace rest)
      | '\x7d' :: rest => some (.obj (seen ++ [(name, written value)]), rest)
      | _ => none := by
  obtain ⟨tail, shape, read⟩ :=
    readString_stringText name (':' :: ((compact value).toList ++ rest))
  rw [shape, readMembers, read]
  dsimp only
  rw [skipSpace_of_head ':' _ (by decide)]
  -- The colon is matched, so the value is read next.
  conv_lhs => whnf
  rw [skipSpace_compact value rest proper, reads fuel rest enough ends]
  exact congrArg (fun known => match skipSpace rest with
    | ',' :: rest => readMembers fuel known (skipSpace rest)
    | '\x7d' :: rest => some (.obj known, rest)
    | _ => none) (setMember_of_not_mem name (written value) seen fresh)

theorem readMembers_compact (members : List (String × Json)) (proper : MembersAreProper members)
    (each : ∀ member ∈ members, ReadsBack member.2) (fuel : Nat) (seen : List (String × Json))
    (rest : List Char) (some_members : members ≠ [])
    (distinct : ((seen ++ members).map (·.1)).Nodup)
    (enough : (compactMembers members).toList.length + 1 < fuel) :
    readMembers fuel seen ((compactMembers members).toList ++ '\x7d' :: rest) =
      some (.obj (seen ++ writtenMembers members), rest) := by
  induction members generalizing fuel seen with
  | nil => exact absurd rfl some_members
  | cons member others ih =>
    obtain ⟨name, value⟩ := member
    obtain ⟨fuel, rfl⟩ : ∃ n, fuel = n + 1 := ⟨fuel - 1, by omega⟩
    have reads : ReadsBack value := each (name, value) (by simp)
    -- A name that comes for the first time is added behind those before it.
    have fresh : name ∉ seen.map (·.1) := by
      rw [List.map_append, List.map_cons] at distinct
      exact fun known => (List.nodup_append.mp distinct).2.2 name known name (by simp) rfl
    by_cases last : others = []
    · subst last
      rw [compactMembers_single] at enough ⊢
      simp only [List.length_append, List.length_cons] at enough
      rw [List.append_assoc, List.cons_append,
        readMembers_step name value proper.1 reads fuel seen ('\x7d' :: rest) (by omega)
          (endsNumber_cons _ _ (.inr (.inr rfl))) fresh]
      rw [skipSpace_of_head '\x7d' _ (by decide)]
      rfl
    · rw [compactMembers_cons name value others last] at enough ⊢
      simp only [List.length_append, List.length_cons] at enough
      have text_pos : 0 < (stringText name).toList.length := by
        rw [stringText_toList]
        simp
      rw [List.append_assoc, List.cons_append, List.append_assoc, List.cons_append,
        readMembers_step name value proper.1 reads fuel seen _ (by omega)
          (endsNumber_cons _ _ (.inl rfl)) fresh]
      rw [skipSpace_of_head ',' _ (by decide)]
      change readMembers fuel (seen ++ [(name, written value)]) (skipSpace _) = _
      obtain ⟨tail, shape⟩ := compactMembers_head others ('\x7d' :: rest) last
      rw [shape, skipSpace_of_head '"' _ (by decide), ← shape,
        ih proper.2 (fun m member => each m (by simp [member])) fuel _ last
          (by simpa [List.append_assoc] using distinct) (by omega)]
      simp [writtenMembers, List.append_assoc]

/-- A claim about values holds if it passes from the parts of each to the whole. -/
theorem induction_on {P : Json → Prop} (value : Json) (null : P .null) (bool : ∀ b, P (.bool b))
    (int : ∀ n, P (.int n)) (float : ∀ x, P (.float x)) (str : ∀ s, P (.str s))
    (arr : ∀ items, (∀ item ∈ items, P item) → P (.arr items))
    (obj : ∀ members, (∀ member ∈ members, P member.2) → P (.obj members)) : P value :=
  Json.rec (motive_1 := P) (motive_2 := fun items => ∀ item ∈ items, P item)
    (motive_3 := fun members => ∀ member ∈ members, P member.2) (motive_4 := fun member => P member.2)
    null bool int float str arr obj (by simp)
    (fun _ _ first others => List.forall_mem_cons.mpr ⟨first, others⟩) (by simp)
    (fun _ _ first others => List.forall_mem_cons.mpr ⟨first, others⟩) (fun _ _ value => value) value

/-- A value and what its text holds have the same text. -/
theorem compact_written (value : Json) : compact value.written = compact value := by
  -- A comma stands before each item but the first, so the item after the next is looked at too.
  have ofItems : ∀ items : List Json, (∀ item ∈ items, compact item.written = compact item) →
      compactItems (writtenItems items) = compactItems items := by
    intro items
    induction items with
    | nil => exact fun _ => rfl
    | cons item rest ih =>
      intro same
      rw [List.forall_mem_cons] at same
      cases rest with
      | nil => exact same.1
      | cons next rest =>
        rw [writtenItems, writtenItems, compactItems, compactItems, same.1, ← ih same.2,
          writtenItems]
  have ofMembers : ∀ members : List (String × Json),
      (∀ member ∈ members, compact member.2.written = compact member.2) →
      compactMembers (writtenMembers members) = compactMembers members := by
    intro members
    induction members with
    | nil => exact fun _ => rfl
    | cons member rest ih =>
      intro same
      rw [List.forall_mem_cons] at same
      cases rest with
      | nil => rw [writtenMembers, writtenMembers, compactMembers, compactMembers, same.1]
      | cons next rest =>
        rw [writtenMembers, writtenMembers, compactMembers, compactMembers, same.1, ← ih same.2,
          writtenMembers]
  induction value using induction_on with
  | null | bool _ | int _ | str _ => rfl
  | float x => cases x <;> rfl
  | arr items ih => rw [written, compact, compact, ofItems items ih]
  | obj members ih => rw [written, compact, compact, ofMembers members ih]

theorem areProper_iff (items : List Json) : AreProper items ↔ ∀ item ∈ items, item.IsProper := by
  induction items with
  | nil => simp [AreProper]
  | cons item rest ih => simp [AreProper, ih]

theorem membersAreProper_iff (members : List (String × Json)) :
    MembersAreProper members ↔ ∀ member ∈ members, member.2.IsProper := by
  induction members with
  | nil => simp [MembersAreProper]
  | cons member rest ih => simp [MembersAreProper, ih]

/-- Each level of a value takes one unit of the fuel, and at least one character of the text. -/
theorem readsBack_of_succ (value : Json) (reads : ∀ (fuel : Nat) (rest : List Char),
      (compact value).toList.length ≤ fuel → EndsNumber rest →
      readValue (fuel + 1) ((compact value).toList ++ rest) = some (written value, rest)) :
    ReadsBack value := by
  intro fuel rest enough ends
  obtain ⟨fuel, rfl⟩ : ∃ n, fuel = n + 1 := ⟨fuel - 1, by omega⟩
  exact reads fuel rest (by omega) ends

theorem readsBack_arr (items : List Json) (proper : AreProper items)
    (each : ∀ item ∈ items, ReadsBack item) : ReadsBack (.arr items) := by
  refine readsBack_of_succ _ fun fuel rest enough ends => ?_
  have text : (compact (.arr items)).toList ++ rest =
      '[' :: ((compactItems items).toList ++ ']' :: rest) := by
    simp [compact]
  have length : (compact (.arr items)).toList.length =
      (compactItems items).toList.length + 2 := by
    simp [compact]
  rw [text, readValue]
  by_cases some_items : items = []
  · subst some_items
    rfl
  · obtain ⟨c, tail, shape, other, nonblank⟩ :=
      skipSpace_compactItems items (']' :: rest) proper some_items
    rw [nonblank]
    have read := readItems_compact items proper each fuel [] rest some_items (by omega)
    rw [shape] at read ⊢
    split
    · rename_i equal
      exact absurd (List.cons.inj equal).1 other
    · exact read

theorem readsBack_obj (members : List (String × Json)) (proper : IsProper (.obj members))
    (each : ∀ member ∈ members, ReadsBack member.2) : ReadsBack (.obj members) := by
  refine readsBack_of_succ _ fun fuel rest enough ends => ?_
  have text : (compact (.obj members)).toList ++ rest =
      '\x7b' :: ((compactMembers members).toList ++ '\x7d' :: rest) := by
    simp [compact]
  have length : (compact (.obj members)).toList.length =
      (compactMembers members).toList.length + 2 := by
    simp [compact]
  rw [text, readValue]
  by_cases some_members : members = []
  · subst some_members
    rfl
  · obtain ⟨tail, shape⟩ := compactMembers_head members ('\x7d' :: rest) some_members
    have read := readMembers_compact members proper.2 each fuel [] rest some_members
      (by simpa using proper.1) (by omega)
    rw [shape] at read ⊢
    rw [skipSpace_of_head '"' _ (by decide)]
    exact read

theorem readsBack (value : Json) (proper : value.IsProper) : ReadsBack value := by
  induction value using induction_on with
  | null => exact readsBack_of_succ _ fun _ _ _ _ => rfl
  | bool b => exact readsBack_of_succ _ fun _ _ _ _ => by cases b <;> rfl
  | int n => exact readsBack_of_succ _ fun fuel rest _ ends => readValue_int fuel n rest ends
  | float x =>
    refine readsBack_of_succ _ fun fuel rest _ ends => ?_
    cases x with
    | finite negative mantissa exponent =>
      exact readValue_float fuel negative mantissa exponent rest proper ends
    | infinite negative =>
      rw [compact, show floatText (.infinite negative) = "null" from rfl]
      rfl
    | nan => rfl
  | str s =>
    refine readsBack_of_succ _ fun fuel rest _ _ => ?_
    obtain ⟨tail, shape, read⟩ := readString_stringText s rest
    rw [compact, shape, readValue, read]
    rfl
  | arr items ih =>
    exact readsBack_arr items proper fun item member =>
      ih item member ((areProper_iff items).mp proper item member)
  | obj members ih =>
    exact readsBack_obj members proper fun member known =>
      ih member known ((membersAreProper_iff members).mp proper.2 member known)

/-- The compact text of a value that repeats no key is the text of the value it is read as. -/
theorem parse?_compact (value : Json) (proper : value.IsProper) :
    parse? (compact value) = some (written value) := by
  have read := readsBack value proper ((compact value).toList.length + 1) [] (by omega)
    endsNumber_nil
  have nonblank := skipSpace_compact value [] proper
  rw [List.append_nil] at read nonblank
  unfold parse?
  simp only [nonblank, read]
  rfl

/-! ## What is read is proper -/

theorem readUnsigned_isProper (negative : Bool) (cs : List Char) (value : Json) (rest : List Char)
    (read : readUnsigned negative cs = some (value, rest)) : value.IsProper := by
  unfold readUnsigned at read
  simp only [Option.bind_eq_bind, Option.bind_eq_some_iff] at read
  obtain ⟨⟨whole, tail⟩, -, read⟩ := read
  split_ifs at read <;> cases read
  · trivial
  · trivial
  · exact Binary64.ofDecimal_isCanonical negative _ _

theorem setMember_names (name : String) (value : Json) (members : List (String × Json)) :
    (setMember name value members).map (·.1) =
      if name ∈ members.map (·.1) then members.map (·.1) else members.map (·.1) ++ [name] := by
  induction members with
  | nil => rfl
  | cons member rest ih =>
    obtain ⟨known, old⟩ := member
    by_cases same : known = name
    · simp [setMember, same]
    · have other : name ≠ known := fun equal => same equal.symm
      by_cases later : name ∈ rest.map (·.1)
      · simp only [later, if_true] at ih
        simp [setMember, same, ih, later]
      · simp only [later, if_false] at ih
        simp [setMember, same, other, ih, later]

theorem setMember_isProper (name : String) (value : Json) (members : List (String × Json))
    (proper : IsProper (.obj members)) (new : value.IsProper) :
    IsProper (.obj (setMember name value members)) := by
  constructor
  · rw [setMember_names]
    split
    · exact proper.1
    · rename_i fresh
      rw [List.nodup_append]
      refine ⟨proper.1, by simp, ?_⟩
      intro known member other isNew equal
      rw [List.mem_singleton.mp isNew] at equal
      exact fresh (equal ▸ member)
  · have all := proper.2
    clear proper
    induction members with
    | nil => exact ⟨new, trivial⟩
    | cons member rest ih =>
      obtain ⟨known, old⟩ := member
      rw [setMember]
      split
      · exact ⟨new, all.2⟩
      · exact ⟨all.1, ih all.2⟩

/-- Whether everything that is read with some fuel repeats no key and holds canonical numbers
only. -/
structure ReadsProper (fuel : Nat) : Prop where
  value : ∀ cs value rest, readValue fuel cs = some (value, rest) → value.IsProper
  items : ∀ seen cs value rest, AreProper seen → readItems fuel seen cs = some (value, rest) →
    value.IsProper
  members : ∀ seen cs value rest, IsProper (.obj seen) →
    readMembers fuel seen cs = some (value, rest) → value.IsProper

section

variable {fuel : Nat} (reads : ReadsProper fuel)

include reads

theorem ReadsProper.readValue_succ (cs : List Char) (value : Json) (rest : List Char)
    (read : readValue (fuel + 1) cs = some (value, rest)) : value.IsProper := by
  rw [readValue.eq_def] at read
  dsimp only at read
  split at read
  · simp only [Option.map_eq_some_iff] at read
    obtain ⟨_, -, equal⟩ := read
    cases equal
    trivial
  · split at read
    · cases read
      trivial
    · exact reads.items [] _ value rest trivial read
  · split at read
    · cases read
      exact ⟨by simp, trivial⟩
    · exact reads.members [] _ value rest ⟨by simp, trivial⟩ read
  -- What is left are words and numbers.
  all_goals first
    | exact readUnsigned_isProper _ _ value rest read
    | cases read; trivial

theorem ReadsProper.readItems_succ (seen : List Json) (cs : List Char) (value : Json)
    (rest : List Char) (proper : AreProper seen)
    (read : readItems (fuel + 1) seen cs = some (value, rest)) : value.IsProper := by
  rw [readItems] at read
  split at read
  · contradiction
  · rename_i item tail first
    have item_proper := reads.value _ _ _ first
    split at read
    · exact reads.items (item :: seen) _ value rest ⟨item_proper, proper⟩ read
    · cases read
      change AreProper _
      rw [areProper_iff] at proper ⊢
      intro other member
      rcases List.mem_cons.mp (List.mem_reverse.mp member) with rfl | known
      · exact item_proper
      · exact proper other known
    · contradiction

theorem ReadsProper.readMembers_succ (seen : List (String × Json)) (cs : List Char) (value : Json)
    (rest : List Char) (proper : IsProper (.obj seen))
    (read : readMembers (fuel + 1) seen cs = some (value, rest)) : value.IsProper := by
  rw [readMembers.eq_def] at read
  dsimp only at read
  split at read
  · split at read
    · contradiction
    · split at read
      · split at read
        · contradiction
        · rename_i first
          have inner_proper := reads.value _ _ _ first
          split at read
          · exact reads.members _ _ value rest (setMember_isProper _ _ seen proper inner_proper)
              read
          · cases read
            exact setMember_isProper _ _ seen proper inner_proper
          · contradiction
      · contradiction
  · contradiction

end

/-- Whatever is read repeats no key and holds canonical numbers only. -/
theorem readsProper (fuel : Nat) : ReadsProper fuel := by
  -- The three readers call each other with one unit of fuel less.
  induction fuel with
  | zero => exact ⟨by simp [readValue], by simp [readItems], by simp [readMembers]⟩
  | succ fuel ih => exact ⟨ih.readValue_succ, ih.readItems_succ, ih.readMembers_succ⟩

theorem parse?_isProper (s : String) (value : Json) (parsed : parse? s = some value) :
    value.IsProper := by
  unfold parse? at parsed
  dsimp only at parsed
  split at parsed
  · rename_i inner rest read
    split at parsed
    · cases parsed
      exact (readsProper _).value _ _ _ read
    · contradiction
  · contradiction

/-! ## Files -/

theorem load_eq_ok_iff (text : String) (value : Json) :
    load text = .ok value ↔ parse? (String.ofList (spellHalves text.toList)) = some value ∧
      hasLongInteger 0 true (outsideQuotes false text.toList) = false := by
  unfold load
  cases parse? (String.ofList (spellHalves text.toList)) with
  | none => simp
  | some read => cases hasLongInteger 0 true (outsideQuotes false text.toList) <;> simp

/-- The text of a file is read as any document if no half stands alone in it and no integer is too
long. -/
theorem load_of_parse? (text : String) (value : Json) (parsed : parse? text = some value)
    (paired : spellHalves text.toList = text.toList)
    (short : hasLongInteger 0 true (outsideQuotes false text.toList) = false) :
    load text = .ok value := by
  rw [load_eq_ok_iff, paired, String.ofList_toList]
  exact ⟨parsed, short⟩

theorem load_isProper (text : String) (value : Json) (loaded : load text = .ok value) :
    value.IsProper :=
  parse?_isProper _ _ ((load_eq_ok_iff text value).mp loaded).1

end GraphQLModels.Json
