import GraphQLModels.Json.Reader
import GraphQLModels.Proofs.Characters
import GraphQLModels.Proofs.ShortestDecimal

/-!
# Numerals read back

Digits are read as the number they write, up to the first character that is no digit. A laid-out
decimal is read as a number with the same value, however its digits and its point are arranged.
-/

namespace GraphQLModels

open Number (Binary64 Decimal10 DecimalStyle)

namespace Json

/-! ## Digits -/

/-- Whether a text may follow a run of digits. -/
def EndsDigits (rest : List Char) : Prop := ∀ c ∈ rest.head?, c.isDigit = false

theorem endsDigits_nil : EndsDigits [] := by simp [EndsDigits]

theorem endsDigits_cons (c : Char) (rest : List Char) (other : c.isDigit = false) :
    EndsDigits (c :: rest) := by
  simpa [EndsDigits] using other

/-- Whether characters are digits and there are some. -/
structure AreDigits (ds : List Char) : Prop where
  nonempty : ds ≠ []
  all : ∀ c ∈ ds, c.isDigit = true

/-- Zeros and digits are digits together. -/
theorem isDigit_zeros_append (count : Nat) (ds : List Char) (digits : ∀ c ∈ ds, c.isDigit = true) :
    ∀ c ∈ List.replicate count '0' ++ ds, c.isDigit = true := by
  intro c member
  rcases List.mem_append.mp member with zero | digit
  · rw [(List.mem_replicate.mp zero).2]
    rfl
  · exact digits c digit

theorem takeWhile_digits (ds rest : List Char) (digits : ∀ c ∈ ds, c.isDigit = true)
    (ends : EndsDigits rest) :
    (ds ++ rest).takeWhile Char.isDigit = ds ∧ (ds ++ rest).dropWhile Char.isDigit = rest := by
  have stop : rest.takeWhile Char.isDigit = [] ∧ rest.dropWhile Char.isDigit = rest := by
    cases rest with
    | nil => exact ⟨rfl, rfl⟩
    | cons c rest =>
      have other : c.isDigit = false := ends c rfl
      simp [other]
  rw [List.takeWhile_append_of_pos digits, List.dropWhile_append_of_pos digits, stop.1, stop.2,
    List.append_nil]
  exact ⟨rfl, rfl⟩

theorem digitsValue_eq (ds : List Char) : digitsValue ds = Nat.ofDigitChars 10 ds 0 := rfl

theorem digitsValue_append (front back : List Char) :
    digitsValue (front ++ back) = digitsValue front * 10 ^ back.length + digitsValue back := by
  rw [digitsValue_eq, Nat.ofDigitChars_append, Nat.ofDigitChars_eq_ofDigitChars_zero, Nat.mul_comm]
  rfl

theorem digitsValue_zeros (count : Nat) : digitsValue (List.replicate count '0') = 0 := by
  rw [digitsValue_eq, Nat.ofDigitChars_replicate_zero, Nat.mul_zero]

theorem digitsValue_zeros_append (count : Nat) (ds : List Char) :
    digitsValue (List.replicate count '0' ++ ds) = digitsValue ds := by
  rw [digitsValue_append, digitsValue_zeros, Nat.zero_mul, Nat.zero_add]

theorem digitsValue_append_zeros (ds : List Char) (count : Nat) :
    digitsValue (ds ++ List.replicate count '0') = digitsValue ds * 10 ^ count := by
  rw [digitsValue_append, digitsValue_zeros, List.length_replicate, Nat.add_zero]

theorem digitsValue_toDigits (n : Nat) : digitsValue (Nat.toDigits 10 n) = n :=
  Nat.ofDigitChars_ten_toDigits

theorem areDigits_toDigits (n : Nat) : AreDigits (Nat.toDigits 10 n) where
  nonempty := Nat.toDigits_ne_nil
  all _ member := Nat.isDigit_of_mem_toDigits (by decide) (by decide) member

theorem digitsValue_lt (ds : List Char) (digits : ∀ c ∈ ds, c.isDigit = true) :
    digitsValue ds < 10 ^ ds.length := by
  induction ds with
  | nil => simp [digitsValue]
  | cons c ds ih =>
    have first := (Text.isDigit_iff c).mp (digits c (by simp))
    have rest := ih fun d member => digits d (by simp [member])
    have split : digitsValue (c :: ds) = digitsValue [c] * 10 ^ ds.length + digitsValue ds :=
      digitsValue_append [c] ds
    have single : digitsValue [c] = c.toNat - 48 := by simp [digitsValue]
    rw [split, single, List.length_cons, pow_succ]
    have : (c.toNat - 48) * 10 ^ ds.length ≤ 9 * 10 ^ ds.length :=
      Nat.mul_le_mul_right _ (by omega)
    omega

/-- The digits of a number that is not zero do not begin with a zero. -/
theorem toDigits_head (n : Nat) (n_pos : 0 < n) :
    ∃ c ds, Nat.toDigits 10 n = c :: ds ∧ c ≠ '0' := by
  obtain ⟨nonempty, all⟩ := areDigits_toDigits n
  obtain ⟨c, ds, shape⟩ := List.exists_cons_of_ne_nil nonempty
  refine ⟨c, ds, shape, ?_⟩
  rintro rfl
  have value : digitsValue ('0' :: ds) = n := by rw [← shape, digitsValue_toDigits]
  have small := digitsValue_lt ds fun d member => all d (by rw [shape]; simp [member])
  have large := Binary64.pow_pred_digitCount_le n n_pos
  have count : Binary64.digitCount n = ds.length + 1 := by
    unfold Binary64.digitCount
    rw [shape, List.length_cons]
  rw [count, Nat.add_sub_cancel] at large
  have same : digitsValue ('0' :: ds) = digitsValue ds := digitsValue_zeros_append 1 ds
  omega

/-! ## The parts of a number -/

/-- Whether digits may stand before the point: no zero is in front of others. -/
structure IsWhole (whole : List Char) : Prop extends AreDigits whole where
  leading : whole.head? = some '0' → whole = ['0']

theorem isWhole_zero : IsWhole ['0'] where
  nonempty := by simp
  all := by simp
  leading := by simp

theorem isWhole_of_head (c : Char) (ds : List Char) (digits : ∀ d ∈ c :: ds, d.isDigit = true)
    (nonzero : c ≠ '0') : IsWhole (c :: ds) where
  nonempty := by simp
  all := digits
  leading := by simp [nonzero]

theorem isWhole_toDigits (n : Nat) : IsWhole (Nat.toDigits 10 n) := by
  rcases Nat.eq_zero_or_pos n with none | n_pos
  · rw [none, Nat.toDigits_zero]
    exact isWhole_zero
  · obtain ⟨c, ds, shape, nonzero⟩ := toDigits_head n n_pos
    have digits := (areDigits_toDigits n).all
    rw [shape] at digits ⊢
    exact isWhole_of_head c ds digits nonzero

theorem readWhole_append (whole rest : List Char) (isWhole : IsWhole whole)
    (ends : EndsDigits rest) : readWhole (whole ++ rest) = some (whole, rest) := by
  obtain ⟨c, ds, rfl⟩ := List.exists_cons_of_ne_nil isWhole.nonempty
  by_cases zero : c = '0'
  · have only : c :: ds = ['0'] := isWhole.leading (by rw [zero]; rfl)
    rw [only]
    rfl
  · obtain ⟨taken, dropped⟩ := takeWhile_digits (c :: ds) rest isWhole.all ends
    rw [readWhole]
    · rw [taken, dropped]
      rfl
    · intro tail equal
      exact zero (List.cons.inj equal).1

theorem readFraction_append (fraction rest : List Char) (digits : AreDigits fraction)
    (ends : EndsDigits rest) :
    readFraction ('.' :: (fraction ++ rest)) = some (fraction, rest) := by
  obtain ⟨taken, dropped⟩ := takeWhile_digits fraction rest digits.all ends
  rw [readFraction, taken, dropped, if_neg]
  simpa using digits.nonempty

theorem readFraction_none (rest : List Char) (ends : rest.head? ≠ some '.') :
    readFraction rest = none := by
  cases rest with
  | nil => rfl
  | cons c rest =>
    rw [readFraction]
    rintro _ equal
    exact ends (by rw [(List.cons.inj equal).1]; rfl)

/-- The exponent that a sign and digits write. -/
def exponentValue (negative : Bool) (ds : List Char) : Int :=
  if negative then -(digitsValue ds : Int) else digitsValue ds

theorem exponentValue_natAbs (e : Int) :
    exponentValue (decide (e < 0)) (Nat.toDigits 10 e.natAbs) = e := by
  unfold exponentValue
  rw [digitsValue_toDigits]
  by_cases below : e < 0
  · simp only [below, decide_true, if_true]
    omega
  · simp only [below, decide_false, Bool.false_eq_true, if_false]
    omega

/-- The characters before the digits of an exponent, each with its sign. -/
def exponentSigns : List (List Char × Bool) := [(['-'], true), (['+'], false), ([], false)]

theorem readExponentSign_append (sign : List Char) (negative : Bool) (ds rest : List Char)
    (isSign : (sign, negative) ∈ exponentSigns) (digits : AreDigits ds) :
    readExponentSign (sign ++ (ds ++ rest)) = (negative, ds ++ rest) := by
  simp only [exponentSigns, List.mem_cons, Prod.mk.injEq, List.not_mem_nil, or_false] at isSign
  rcases isSign with ⟨rfl, rfl⟩ | ⟨rfl, rfl⟩ | ⟨rfl, rfl⟩
  · rfl
  · rfl
  · obtain ⟨c, ds, rfl⟩ := List.exists_cons_of_ne_nil digits.nonempty
    have digit := digits.all c (by simp)
    simp only [List.nil_append, List.cons_append]
    rw [readExponentSign]
    · rintro _ equal
      rw [(List.cons.inj equal).1] at digit
      exact absurd digit (by decide)
    · rintro _ equal
      rw [(List.cons.inj equal).1] at digit
      exact absurd digit (by decide)

theorem readExponent_append (mark : Char) (sign : List Char) (negative : Bool)
    (ds rest : List Char) (isMark : mark = 'e' ∨ mark = 'E')
    (isSign : (sign, negative) ∈ exponentSigns) (digits : AreDigits ds) (ends : EndsDigits rest) :
    readExponent (mark :: (sign ++ (ds ++ rest))) = some (exponentValue negative ds, rest) := by
  obtain ⟨taken, dropped⟩ := takeWhile_digits ds rest digits.all ends
  have marked : (mark == 'e' || mark == 'E') = true := by simpa using isMark
  have some_digits : ds.isEmpty = false := by simpa using digits.nonempty
  simp only [readExponent, marked, if_true, readExponentSign_append sign negative ds rest isSign
    digits, taken, dropped, some_digits, Bool.false_eq_true, if_false, exponentValue]

theorem readExponent_none (rest : List Char) (ends : rest.head? ≠ some 'e')
    (ends' : rest.head? ≠ some 'E') : readExponent rest = none := by
  cases rest with
  | nil => rfl
  | cons c rest =>
    simp only [List.head?_cons, ne_eq, Option.some.injEq] at ends ends'
    simp [readExponent, ends, ends']

/-! ## Numbers -/

/-- Whether a text may follow a number. -/
structure EndsNumber (rest : List Char) : Prop where
  digits : EndsDigits rest
  point : rest.head? ≠ some '.'
  mark : rest.head? ≠ some 'e'
  mark' : rest.head? ≠ some 'E'

theorem endsNumber_nil : EndsNumber [] := ⟨endsDigits_nil, by simp, by simp, by simp⟩

theorem endsNumber_cons (c : Char) (rest : List Char) (closes : c = ',' ∨ c = ']' ∨ c = '\x7d') :
    EndsNumber (c :: rest) := by
  rcases closes with rfl | rfl | rfl <;>
    exact ⟨endsDigits_cons _ _ (by decide), by simp, by simp, by simp⟩

/-- An integer reads back. -/
theorem readUnsigned_toDigits (negative : Bool) (n : Nat) (rest : List Char)
    (ends : EndsNumber rest) :
    readUnsigned negative (Nat.toDigits 10 n ++ rest) =
      some (.int (if negative then -(n : Int) else n), rest) := by
  unfold readUnsigned
  simp only [readWhole_append _ rest (isWhole_toDigits n) ends.digits,
    readFraction_none rest ends.point, readExponent_none rest ends.mark ends.mark',
    Option.bind_eq_bind, Option.bind_some, Option.isNone_none, Bool.and_self, if_true,
    digitsValue_toDigits]
  rfl

/-- A number with a point is read as the decimal of its digits. -/
theorem readUnsigned_point (negative : Bool) (whole fraction rest : List Char)
    (isWhole : IsWhole whole) (digits : AreDigits fraction) (ends : EndsNumber rest) :
    readUnsigned negative (whole ++ '.' :: (fraction ++ rest)) =
      some (.float (Binary64.ofDecimal negative (digitsValue (whole ++ fraction))
        (-(fraction.length : Int))), rest) := by
  unfold readUnsigned
  simp only [readWhole_append whole _ isWhole (endsDigits_cons '.' _ (by decide)),
    readFraction_append fraction rest digits ends.digits,
    readExponent_none rest ends.mark ends.mark', Option.bind_eq_bind, Option.bind_some,
    Option.isNone_some, Option.isNone_none, Bool.false_and, Bool.false_eq_true, if_false,
    Option.getD_some, Option.getD_none, zero_sub]
  rfl

/-- The characters of a fraction, none if there are no digits after the point. -/
def fractionText (fraction : List Char) : List Char :=
  if fraction.isEmpty then [] else '.' :: fraction

/-- A number with an exponent is read as the decimal of its digits. -/
theorem readUnsigned_exponent (negative : Bool) (whole fraction : List Char) (mark : Char)
    (sign : List Char) (below : Bool) (ds rest : List Char) (isWhole : IsWhole whole)
    (fraction_digits : ∀ c ∈ fraction, c.isDigit = true) (isMark : mark = 'e' ∨ mark = 'E')
    (isSign : (sign, below) ∈ exponentSigns) (digits : AreDigits ds) (ends : EndsNumber rest) :
    readUnsigned negative
        (whole ++ (fractionText fraction ++ mark :: (sign ++ (ds ++ rest)))) =
      some (.float (Binary64.ofDecimal negative (digitsValue (whole ++ fraction))
        (exponentValue below ds - fraction.length)), rest) := by
  have mark_ends : ∀ tail : List Char,
      EndsDigits (mark :: tail) ∧ (mark :: tail).head? ≠ some '.' := by
    intro tail
    rcases isMark with rfl | rfl <;> exact ⟨endsDigits_cons _ _ (by decide), by simp⟩
  have exponent := readExponent_append mark sign below ds rest isMark isSign digits ends.digits
  unfold readUnsigned
  by_cases none : fraction = []
  · subst none
    simp only [fractionText, List.isEmpty_nil, if_true, List.nil_append,
      readWhole_append whole _ isWhole (mark_ends _).1, readFraction_none _ (mark_ends _).2,
      exponent, Option.bind_eq_bind, Option.bind_some, Option.isNone_none, Option.isNone_some,
      Bool.true_and, Bool.false_eq_true, if_false, Option.getD_none, Option.getD_some]
    rfl
  · have some_digits : fraction.isEmpty = false := by simpa using none
    simp only [fractionText, some_digits, Bool.false_eq_true, if_false, List.cons_append,
      readWhole_append whole _ isWhole (endsDigits_cons '.' _ (by decide)),
      readFraction_append fraction _ ⟨none, fraction_digits⟩ (mark_ends _).1, exponent,
      Option.bind_eq_bind, Option.bind_some, Option.isNone_some, Bool.false_and,
      Option.getD_some]
    rfl

end Json

/-! ## Laid-out decimals -/

namespace Number.DecimalStyle

open Json

theorem trimZeros_append (ds : List Char) :
    ∃ count, ds = trimZeros ds ++ List.replicate count '0' := by
  refine ⟨(ds.reverse.takeWhile (· == '0')).length, ?_⟩
  have zeros : ds.reverse.takeWhile (· == '0') =
      List.replicate (ds.reverse.takeWhile (· == '0')).length '0' := by
    apply List.eq_replicate_iff.mpr
    refine ⟨rfl, fun c member => ?_⟩
    have all : (ds.reverse.takeWhile (· == '0')).all (· == '0') = true := List.all_takeWhile
    simpa using List.all_eq_true.mp all c member
  have parts : ds.reverse.takeWhile (· == '0') ++ ds.reverse.dropWhile (· == '0') = ds.reverse :=
    List.takeWhile_append_dropWhile
  have reversed := congrArg List.reverse parts
  rw [List.reverse_append, List.reverse_reverse, zeros, List.reverse_replicate] at reversed
  exact reversed.symm

/-- The digits of a number that is not zero: one that is not zero, others, and zeros at the end. -/
theorem trimmed_digits (n : Nat) (n_pos : 0 < n) :
    ∃ c ds count, trimZeros (Nat.toDigits 10 n) = c :: ds ∧ c ≠ '0' ∧
      (∀ d ∈ c :: ds, d.isDigit = true) ∧
      (Nat.toDigits 10 n).length = ds.length + 1 + count ∧
      n = digitsValue (c :: ds) * 10 ^ count := by
  obtain ⟨first, others, shape, nonzero⟩ := toDigits_head n n_pos
  obtain ⟨count, parts⟩ := trimZeros_append (Nat.toDigits 10 n)
  have digits := (areDigits_toDigits n).all
  have value := digitsValue_toDigits n
  generalize trimZeros (Nat.toDigits 10 n) = kept at parts
  cases kept with
  | nil =>
    rw [parts, List.nil_append] at shape
    cases count with
    | zero => simp at shape
    | succ count => exact absurd (List.cons.inj shape).1.symm nonzero
  | cons c ds =>
    have same : c = first := by
      rw [parts, List.cons_append] at shape
      exact (List.cons.inj shape).1
    rw [parts] at digits value
    refine ⟨c, ds, count, rfl, same ▸ nonzero,
      fun d member => digits d (List.mem_append_left _ member), ?_, ?_⟩
    · rw [parts]
      simp only [List.length_append, List.length_cons, List.length_replicate]
    · rw [← digitsValue_append_zeros, value]

theorem readUnsigned_scientific (negative : Bool) (c : Char) (ds rest : List Char) (point : Int)
    (nonzero : c ≠ '0') (digits : ∀ d ∈ c :: ds, d.isDigit = true) (ends : EndsNumber rest) :
    readUnsigned negative
        ([c] ++ (fractionText ds ++ 'e' :: ((if point - 1 < 0 then ['-'] else []) ++
          (Nat.toDigits 10 (point - 1).natAbs ++ rest)))) =
      some (.float (Binary64.ofDecimal negative (digitsValue (c :: ds))
        (point - (ds.length + 1))), rest) := by
  have isWhole : IsWhole [c] := isWhole_of_head c [] (by simpa using digits c (by simp)) nonzero
  have isSign : ((if point - 1 < 0 then ['-'] else [] : List Char), decide (point - 1 < 0)) ∈
      exponentSigns := by
    by_cases below : point - 1 < 0 <;> simp [below, exponentSigns]
  rw [readUnsigned_exponent negative [c] ds 'e' _ _ _ rest isWhole
    (fun d member => digits d (by simp [member])) (.inl rfl) isSign
    (areDigits_toDigits _) ends]
  rw [exponentValue_natAbs, show point - 1 - (ds.length : Int) = point - (ds.length + 1) by ring]
  rfl

theorem readUnsigned_small (negative : Bool) (c : Char) (ds rest : List Char) (point : Int)
    (digits : ∀ d ∈ c :: ds, d.isDigit = true) (ends : EndsNumber rest) (small : point ≤ 0) :
    readUnsigned negative
        (['0'] ++ '.' :: (List.replicate (-point).toNat '0' ++ c :: ds ++ rest)) =
      some (.float (Binary64.ofDecimal negative (digitsValue (c :: ds))
        (point - (ds.length + 1))), rest) := by
  have fraction : AreDigits (List.replicate (-point).toNat '0' ++ c :: ds) :=
    ⟨by simp, isDigit_zeros_append _ _ digits⟩
  rw [readUnsigned_point negative ['0'] _ rest isWhole_zero fraction ends]
  have value : digitsValue (['0'] ++ (List.replicate (-point).toNat '0' ++ c :: ds)) =
      digitsValue (c :: ds) := by
    rw [← List.append_assoc]
    exact digitsValue_zeros_append (1 + (-point).toNat) (c :: ds) ▸ by
      rw [List.replicate_add]
      rfl
  rw [value, List.length_append, List.length_replicate, List.length_cons]
  congr 4
  push_cast
  omega

/-- Digits that end before the point: zeros fill it up, and one stands behind it. -/
theorem readUnsigned_filled (negative : Bool) (c : Char) (ds rest : List Char) (point : Nat)
    (nonzero : c ≠ '0') (digits : ∀ d ∈ c :: ds, d.isDigit = true) (ends : EndsNumber rest)
    (long : (c :: ds).length ≤ point) :
    readUnsigned negative
        (c :: ds ++ List.replicate (point - (c :: ds).length) '0' ++ '.' :: (['0'] ++ rest)) =
      some (.float (Binary64.ofDecimal negative (digitsValue (c :: ds))
        (point - (ds.length + 1))), rest) := by
  have whole : IsWhole (c :: ds ++ List.replicate (point - (c :: ds).length) '0') := by
    apply isWhole_of_head c _ _ nonzero
    intro d member
    rw [List.append_eq, ← List.cons_append] at member
    rcases List.mem_append.mp member with digit | zero
    · exact digits d digit
    · exact isDigit_zeros_append _ [] (by simp) d (List.mem_append_left _ zero)
  have value : digitsValue (c :: ds ++ List.replicate (point - (c :: ds).length) '0' ++ ['0']) =
      digitsValue (c :: ds) * 10 ^ (point - (c :: ds).length + 1) := by
    rw [← digitsValue_append_zeros, List.replicate_add, List.append_assoc]
    rfl
  rw [readUnsigned_point negative _ ['0'] rest whole ⟨by simp, by simp⟩ ends, value,
    Binary64.ofDecimal_mul_pow]
  congr 4
  simp only [List.length_cons, List.length_nil] at long ⊢
  push_cast
  omega

/-- Digits on both sides of the point. -/
theorem readUnsigned_split (negative : Bool) (c : Char) (ds rest : List Char) (point : Nat)
    (nonzero : c ≠ '0') (digits : ∀ d ∈ c :: ds, d.isDigit = true) (ends : EndsNumber rest)
    (point_pos : 0 < point) (short : point < (c :: ds).length) :
    readUnsigned negative ((c :: ds).take point ++ '.' :: ((c :: ds).drop point ++ rest)) =
      some (.float (Binary64.ofDecimal negative (digitsValue (c :: ds))
        (point - (ds.length + 1))), rest) := by
  have whole : IsWhole ((c :: ds).take point) := by
    obtain ⟨k, rfl⟩ := Nat.exists_eq_add_of_lt point_pos
    rw [Nat.zero_add, List.take_succ_cons]
    apply isWhole_of_head c _ _ nonzero
    intro d member
    rw [← List.take_succ_cons] at member
    exact digits d (List.mem_of_mem_take member)
  have fraction : AreDigits ((c :: ds).drop point) := by
    refine ⟨?_, fun d member => digits d (List.mem_of_mem_drop member)⟩
    rw [ne_eq, List.drop_eq_nil_iff]
    exact Nat.not_le_of_lt short
  rw [readUnsigned_point negative _ _ rest whole fraction ends, List.take_append_drop,
    List.length_drop]
  congr 4
  simp only [List.length_cons] at short ⊢
  omega

theorem readUnsigned_plain (negative : Bool) (c : Char) (ds rest : List Char) (point : Nat)
    (nonzero : c ≠ '0') (digits : ∀ d ∈ c :: ds, d.isDigit = true) (ends : EndsNumber rest)
    (point_pos : 0 < point) :
    readUnsigned negative
        ((c :: ds).take point ++ List.replicate (point - (c :: ds).length) '0' ++ '.' ::
          ((if ((c :: ds).drop point).isEmpty then ['0'] else (c :: ds).drop point) ++ rest)) =
      some (.float (Binary64.ofDecimal negative (digitsValue (c :: ds))
        (point - (ds.length + 1))), rest) := by
  by_cases long : (c :: ds).length ≤ point
  · rw [List.take_of_length_le long, List.drop_of_length_le long]
    simp only [List.isEmpty_nil, if_true]
    exact readUnsigned_filled negative c ds rest point nonzero digits ends long
  · have some_fraction : ((c :: ds).drop point).isEmpty = false := by
      rw [List.isEmpty_eq_false_iff, ne_eq, List.drop_eq_nil_iff]
      exact long
    have no_zeros : point - (c :: ds).length = 0 := by omega
    simp only [some_fraction, Bool.false_eq_true, if_false, no_zeros, List.replicate_zero,
      List.append_nil]
    exact readUnsigned_split negative c ds rest point nonzero digits ends point_pos
      (Nat.lt_of_not_le long)

/-- What a document holds for a decimal that is not zero is read as that decimal. -/
theorem readUnsigned_layOut (negative : Bool) (d : Decimal10) (rest : List Char)
    (digits_pos : 0 < d.digits) (ends : EndsNumber rest) :
    readUnsigned negative ((document.layOut d).toList ++ rest) =
      some (.float (Binary64.ofDecimal negative d.digits d.exponent), rest) := by
  obtain ⟨c, ds, count, trimmed, nonzero, digits, length, value⟩ := trimmed_digits d.digits digits_pos
  -- All layouts are read as the digits up to the zeros, under the exponent of the last of them.
  have rounded : Binary64.ofDecimal negative d.digits d.exponent =
      Binary64.ofDecimal negative (digitsValue (c :: ds)) (d.exponent + count) := by
    conv_lhs => rw [value]
    exact Binary64.ofDecimal_mul_pow negative _ count d.exponent
  rw [rounded]
  generalize pointed : (((Nat.toDigits 10 d.digits).length : Int) + d.exponent) = point
  have last : d.exponent + count = point - (ds.length + 1) := by
    rw [length] at pointed
    push_cast at pointed
    omega
  rw [last]
  unfold layOut
  simp only [trimmed, pointed]
  split
  · have text := readUnsigned_scientific negative c ds rest point nonzero digits ends
    have width : document.exponentWidth - (Nat.toDigits 10 (point - 1).natAbs).length = 0 := by
      have : 0 < (Nat.toDigits 10 (point - 1).natAbs).length := Nat.length_toDigits_pos
      change 1 - _ = 0
      omega
    have sign : (if point - 1 < 0 then "-" else if document.plusSign then "+" else "").toList =
        if point - 1 < 0 then ['-'] else [] := by
      split <;> rfl
    have fraction : (if (c :: ds).length ≤ 1 then [] else '.' :: (c :: ds).drop 1) =
        fractionText ds := by
      cases ds <;> rfl
    rw [width, fraction]
    simp only [String.toList_append, String.toList_ofList, sign, List.replicate_zero,
      List.nil_append, List.append_assoc]
    exact text
  · split
    · rename_i small
      have text := readUnsigned_small negative c ds rest point digits ends small
      simpa only [String.toList_ofList, List.cons_append, List.nil_append, List.append_assoc]
        using text
    · rename_i large
      have text := readUnsigned_plain negative c ds rest point.toNat nonzero digits ends (by omega)
      rw [Int.toNat_of_nonneg (by omega)] at text
      simpa only [String.toList_ofList, List.append_assoc, List.cons_append] using text

end Number.DecimalStyle

end GraphQLModels
