import GraphQLModels.Proofs.Characters
import GraphQLModels.Text.Words

/-!
# Names in lower-case words

The two passes that set off the words of a name come to one: a capital that is not the first
character gets an underscore in front if it stands behind a small letter or a digit, or in front of a
small letter. So names that differ in underscores or in the case of letters may read alike, while
names of capitalised words can be read back.
-/

namespace GraphQLModels.Text

/-! ## One pass -/

/-- Puts an underscore in front of the characters that are to be set apart, given the character
behind which they stand. -/
def setApart (apart : Char → Char → List Char → Bool) (behind : Char) : List Char → List Char
  | [] => []
  | c :: rest =>
    if apart behind c rest then '_' :: c :: setApart apart c rest else c :: setApart apart c rest

/-- Whether the second pass sets a character apart: a capital behind a small letter or digit. -/
def endsWord (behind c : Char) (_ : List Char) : Bool :=
  (behind.isLower || behind.isDigit) && c.isUpper

/-- Whether either pass sets a character apart: a capital behind a small letter or digit, or one in
front of a small letter that does not begin a line. -/
def beginsWord (behind c : Char) (rest : List Char) : Bool :=
  c.isUpper && (behind.isLower || behind.isDigit ||
    (behind != '\n' && rest.head?.any Char.isLower))

/-- The letters of a name with an underscore in front of each word but the first. -/
def setOff : List Char → List Char
  | [] => []
  | c :: rest => c :: setApart beginsWord c rest

/-- Where only capitals are set apart, small letters stay as they are. -/
theorem setApart_lower (apart : Char → Char → List Char → Bool)
    (only : ∀ behind c rest, apart behind c rest = true → c.isUpper = true)
    (letters rest : List Char) (behind : Char) (lower : ∀ c ∈ letters, c.isLower = true) :
    setApart apart behind (letters ++ rest) = letters ++
      setApart apart ((behind :: letters).getLast (List.cons_ne_nil _ _)) rest := by
  induction letters generalizing behind with
  | nil => rfl
  | cons c letters ih =>
    obtain ⟨small, others⟩ := List.forall_mem_cons.mp lower
    have plain : ¬apart behind c (letters ++ rest) = true := by
      intro set
      have upper := only _ _ _ set
      exact absurd (small.symm.trans (isUpper_exclusive c upper).1) (by decide)
    rw [List.cons_append, setApart, if_neg plain, ih c others]
    rfl

theorem endsWord_upper (behind c : Char) (rest : List Char) (ends : endsWord behind c rest = true) :
    c.isUpper = true :=
  (Bool.and_eq_true_iff.mp ends).2

theorem beginsWord_upper (behind c : Char) (rest : List Char)
    (begins : beginsWord behind c rest = true) : c.isUpper = true :=
  (Bool.and_eq_true_iff.mp begins).1

/-- A capital ends no word, so the second pass passes over none. -/
theorem setOffCapitals_cons (c : Char) (rest : List Char) :
    setOffCapitals (c :: rest) = c :: setApart endsWord c rest := by
  induction rest generalizing c with
  | nil => rfl
  | cons u rest ih =>
    unfold setOffCapitals setApart
    by_cases ends : ((c.isLower || c.isDigit) && u.isUpper) = true
    · rw [if_pos ends, if_pos (show endsWord c u rest = true from ends)]
      obtain ⟨noLetter, noDigit⟩ := isUpper_exclusive u (endsWord_upper c u rest ends)
      cases rest with
      | nil => rfl
      | cons next rest =>
        have again := ih u
        rw [setOffCapitals, noLetter, noDigit, Bool.or_self, Bool.false_and,
          if_neg Bool.false_ne_true] at again
        rw [← (List.cons.inj again).2]
    · rw [if_neg ends, if_neg (show ¬endsWord c u rest = true from ends), ih u]

/-- The letters with what the second pass puts in front of the first of them. -/
def setOffBehind (behind : Char) : List Char → List Char
  | [] => []
  | c :: rest => (if endsWord behind c rest then ['_'] else []) ++ c :: setApart beginsWord c rest

theorem setApart_endsWord_cons (behind c : Char) (rest others : List Char) :
    setApart endsWord behind (c :: others) =
      (if endsWord behind c rest then ['_'] else []) ++ c :: setApart endsWord c others := by
  rw [setApart]
  change (if endsWord behind c rest = true then _ else _) = _
  split <;> rfl

/-- Where both passes agree on a character, one pass does what the second one would. -/
theorem setApart_of_agree (behind c : Char) (rest : List Char)
    (same : beginsWord behind c rest = endsWord behind c rest) :
    setApart beginsWord behind (c :: rest) = setOffBehind behind (c :: rest) := by
  rw [setApart, setOffBehind, same]
  split <;> rfl

theorem setApart_behind_lower (behind : Char) (small : behind.isLower = true) (cs : List Char) :
    setApart beginsWord behind cs = setOffBehind behind cs := by
  cases cs with
  | nil => rfl
  | cons c rest => exact setApart_of_agree behind c rest (by simp [beginsWord, endsWord, small])

theorem getLast_cons_takeWhile (p : Char → Bool) (c : Char) (cs : List Char)
    (some : cs.head?.any p = true) :
    p ((c :: cs.takeWhile p).getLast (List.cons_ne_nil _ _)) = true := by
  cases cs with
  | nil => cases some
  | cons next rest =>
    have taken : p next = true := some
    simp only [List.takeWhile_cons, taken, if_true]
    rw [List.getLast_cons (List.cons_ne_nil _ _)]
    have all := List.all_takeWhile (p := p) (l := next :: rest)
    rw [List.takeWhile_cons, taken] at all
    exact List.all_eq_true.mp all _ (List.getLast_mem _)

/-- The second pass over what the first one leaves sets apart what begins a word. The letters that
are taken along with a capital hide the capital behind them from the first pass, but not from the
second. -/
theorem setApart_setOffWords (behind : Char) (cs : List Char) :
    setApart endsWord behind (setOffWords cs) = setOffBehind behind cs := by
  induction cs using setOffWords.induct generalizing behind with
  | case1 => rw [setOffWords, setApart, setOffBehind]
  | case2 c =>
    rw [setOffWords, setApart_endsWord_cons behind c [], setOffBehind]
    rfl
  | case3 c upper rest found ih =>
    rw [setOffWords, if_pos found, setApart_endsWord_cons behind c (upper :: rest), setOffBehind]
    simp only [Bool.and_eq_true, bne_iff_ne, ne_eq] at found
    obtain ⟨⟨inLine, capital⟩, small⟩ := found
    have begins : beginsWord c upper rest = true := by
      simp [beginsWord, capital, inLine, small]
    have letters := List.all_eq_true.mp (List.all_takeWhile (p := Char.isLower) (l := rest))
    have last := getLast_cons_takeWhile Char.isLower upper rest small
    -- The first pass has put an underscore here, so the second one adds none.
    have noMark : ∀ others, setApart endsWord c ('_' :: upper :: others) =
        '_' :: upper :: setApart endsWord upper others := by
      intro others
      have notMark : endsWord c '_' (upper :: others) = false := by simp [endsWord]
      have notCapital : endsWord '_' upper others = false := by simp [endsWord]
      simp only [setApart, notMark, notCapital, Bool.false_eq_true, if_false]
    have onePass : setApart beginsWord c (upper :: rest) =
        '_' :: upper :: setApart beginsWord upper rest := by
      rw [setApart, if_pos begins]
    have cut : rest = rest.takeWhile Char.isLower ++ rest.dropWhile Char.isLower :=
      List.takeWhile_append_dropWhile.symm
    have behindLetters : setApart beginsWord upper rest = rest.takeWhile Char.isLower ++
        setOffBehind ((upper :: rest.takeWhile Char.isLower).getLast (List.cons_ne_nil _ _))
          (rest.dropWhile Char.isLower) := by
      conv_lhs => rw [cut]
      rw [setApart_lower beginsWord beginsWord_upper _ _ upper letters,
        setApart_behind_lower _ last]
    rw [noMark, setApart_lower endsWord endsWord_upper _ _ upper letters, ih, onePass, behindLetters]
  | case4 c upper rest none ih =>
    -- Without small letters behind the capital both passes look at the same two characters.
    have same : beginsWord c upper rest = endsWord c upper rest := by
      simp only [beginsWord, endsWord]
      cases capital : upper.isUpper with
      | false => simp
      | true => simp_all
    rw [setOffWords, if_neg none, setApart_endsWord_cons behind c (upper :: rest), ih c,
      ← setApart_of_agree c upper rest same]
    rfl

/-- A name in lower-case words has an underscore in front of each word but the first. -/
theorem snakeCase_eq (name : String) :
    snakeCase name = lower (String.ofList (setOff name.toList)) := by
  unfold snakeCase
  -- Behind an underscore nothing is set apart at the front.
  have second : ∀ cs, setOffCapitals cs = setApart endsWord '_' cs := by
    intro cs
    cases cs with
    | nil => rfl
    | cons c rest =>
      have plain : endsWord '_' c rest = false := by simp [endsWord]
      rw [setOffCapitals_cons, setApart, plain, if_neg Bool.false_ne_true]
  have both : ∀ cs, setOffBehind '_' cs = setOff cs := by
    intro cs
    cases cs with
    | nil => rfl
    | cons c rest =>
      have plain : endsWord '_' c rest = false := by simp [endsWord]
      rw [setOffBehind, setOff, plain, if_neg Bool.false_ne_true, List.nil_append]
  rw [second, setApart_setOffWords, both]

/-! ## Capitalised words -/

/-- Whether letters and digits go on with capitalised words: no capital stands directly behind
another. -/
def continuesWords (behind : Char) : List Char → Bool
  | [] => true
  | c :: rest => c.isAlphanum && !(behind.isUpper && c.isUpper) && continuesWords c rest

/-- Whether a name is made of capitalised words. -/
def IsCapitalised (name : String) : Prop :=
  ∃ c rest, name.toList = c :: rest ∧ c.isUpper = true ∧ continuesWords c rest = true

/-- Reads letters that were set apart by underscores: the first of each word is a capital. -/
def readWords (first : Bool) : List Char → List Char
  | [] => []
  | c :: rest =>
    if c == '_' then readWords true rest
    else (if first then c.toUpper else c) :: readWords false rest

/-- Text in ASCII is lower-cased letter by letter. -/
theorem lowerFrom_ascii (before cs : List Char) (ascii : ∀ c ∈ cs, c.toNat < 128) :
    lowerFrom before cs = cs.map Char.toLower := by
  have all : ∀ n : Fin 128, let c := Char.ofNat n.val
      c ≠ '\u0130' ∧ c ≠ '\u03a3' ∧ lowerChar c = c.toLower := by decide +kernel
  induction cs generalizing before with
  | nil => rfl
  | cons c rest ih =>
    obtain ⟨low, others⟩ := List.forall_mem_cons.mp ascii
    have found := all ⟨c.toNat, low⟩
    simp only [Char.ofNat_toNat] at found
    obtain ⟨dotted, sigma, plain⟩ := found
    rw [lowerFrom, ih (c :: before) others, List.map_cons]
    simp [dotted, sigma, plain]

theorem not_mark_of_alphanum (c : Char) (known : c.isAlphanum = true) : (c == '_') = false := by
  rw [beq_eq_false_iff_ne]
  rintro rfl
  exact absurd known (by decide)

/-- What is set off in capitalised words is read back. -/
theorem readWords_setApart (behind : Char) (rest : List Char) (known : behind.isAlphanum = true)
    (words : continuesWords behind rest = true) :
    readWords false ((setApart beginsWord behind rest).map Char.toLower) = rest := by
  induction rest generalizing behind with
  | nil => rfl
  | cons c rest ih =>
    simp only [continuesWords, Bool.and_eq_true] at words
    obtain ⟨⟨letter, apart⟩, words⟩ := words
    cases capital : c.isUpper with
    | true =>
      -- No two capitals stand together, so this one was given an underscore.
      have plain : behind.isUpper = false := by simpa [capital] using apart
      have before : (behind.isLower || behind.isDigit) = true := by
        rw [isAlphanum_iff, plain] at known
        simpa using known
      have begins : beginsWord behind c rest = true := by simp [beginsWord, capital, before]
      obtain ⟨noMark, found⟩ := toUpper_toLower c capital
      rw [setApart, if_pos begins, List.map_cons, List.map_cons]
      change readWords true (c.toLower :: _) = _
      rw [readWords, if_neg (by simpa using noMark), if_pos rfl, found, ih c letter words]
    | false =>
      have stays : beginsWord behind c rest = false := by simp [beginsWord, capital]
      rw [setApart, if_neg (by simp [stays]), List.map_cons, toLower_of_not_upper c capital,
        readWords, if_neg (by simp [not_mark_of_alphanum c letter]), if_neg Bool.false_ne_true,
        ih c letter words]

theorem mem_setApart (apart : Char → Char → List Char → Bool) (behind : Char) (cs : List Char) :
    ∀ c ∈ setApart apart behind cs, c = '_' ∨ c ∈ cs := by
  induction cs generalizing behind with
  | nil => exact fun c member => .inr member
  | cons c rest ih =>
    intro x member
    rw [setApart] at member
    split at member
    · rcases List.mem_cons.mp member with mark | member
      · exact .inl mark
      · rcases List.mem_cons.mp member with rfl | later
        · exact .inr List.mem_cons_self
        · exact (ih c x later).imp_right (List.mem_cons_of_mem _)
    · rcases List.mem_cons.mp member with rfl | later
      · exact .inr List.mem_cons_self
      · exact (ih c x later).imp_right (List.mem_cons_of_mem _)

theorem alphanum_of_continuesWords (behind : Char) (cs : List Char)
    (words : continuesWords behind cs = true) : ∀ c ∈ cs, c.isAlphanum = true := by
  induction cs generalizing behind with
  | nil => exact fun c member => (List.not_mem_nil member).elim
  | cons c rest ih =>
    simp only [continuesWords, Bool.and_eq_true] at words
    exact List.forall_mem_cons.mpr ⟨words.1.1, ih c words.2⟩

/-- A name of capitalised words is read back from its lower-case words. -/
theorem readWords_snakeCase (name : String) (words : IsCapitalised name) :
    readWords true (snakeCase name).toList = name.toList := by
  obtain ⟨c, rest, letters, capital, continues⟩ := words
  have known : c.isAlphanum = true := (isAlphanum_iff c).mpr (.inl capital)
  have ascii : ∀ x ∈ setOff (c :: rest), x.toNat < 128 := by
    refine List.forall_mem_cons.mpr ⟨ascii_of_alphanum c known, fun x member => ?_⟩
    rcases mem_setApart _ _ _ x member with rfl | listed
    · decide
    · exact ascii_of_alphanum x (alphanum_of_continuesWords c rest continues x listed)
  obtain ⟨noMark, found⟩ := toUpper_toLower c capital
  rw [snakeCase_eq, lower, String.toList_ofList, String.toList_ofList, letters,
    lowerFrom_ascii [] _ ascii, setOff, List.map_cons, readWords, if_neg (by simpa using noMark),
    if_pos rfl, found, readWords_setApart c rest known continues]

/-- Different names of capitalised words have different lower-case words. -/
theorem snakeCase_injective (one other : String) (capitalised : IsCapitalised one)
    (capitalised' : IsCapitalised other) (same : snakeCase one = snakeCase other) :
    one = other := by
  apply String.toList_inj.mp
  rw [← readWords_snakeCase one capitalised, same, readWords_snakeCase other capitalised']

/-! ## No words -/

theorem lowerFrom_ne_nil (before : List Char) (c : Char) (rest : List Char) :
    lowerFrom before (c :: rest) ≠ [] := by
  rw [lowerFrom]
  intro none
  have first := (List.append_eq_nil_iff.mp none).1
  split at first
  · cases first
  · split at first
    · split at first <;> cases first
    · cases first

/-- Only the empty name has no words. -/
theorem snakeCase_eq_empty_iff (name : String) : snakeCase name = "" ↔ name = "" := by
  rw [snakeCase_eq, ← String.toList_inj, ← String.toList_inj, lower, String.toList_ofList,
    String.toList_ofList]
  cases name.toList with
  | nil => exact iff_of_true rfl rfl
  | cons c rest => exact iff_of_false (lowerFrom_ne_nil [] c _) (List.cons_ne_nil c rest)

end GraphQLModels.Text
