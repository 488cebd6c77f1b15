import GraphQLModels.Model.Encoding
import GraphQLModels.Proofs.Characters
import GraphQLModels.Proofs.JsonText
import GraphQLModels.Proofs.Times

/-!
# Scalars read back

A decimal, an identifier, a date or a time is written as a text in which each part is found again. So
what a scalar type reads from a document is what it reads from the JSON value of the result, but for
numbers that are not finite.
-/

namespace GraphQLModels

open Number (Binary64 Decimal DecimalReading)
open Json (digitsValue AreDigits EndsDigits signedText fractionText exponentValue exponentSigns)

namespace Number

/-! ## Decimals -/

/-- The characters of a decimal. -/
def IsPlain (c : Char) : Prop := c.isDigit = true ∨ c = '.' ∨ c = '-' ∨ c = '+' ∨ c = 'E'

theorem isPlain_nonblank (c : Char) (plain : IsPlain c) : Text.isBlank c = false ∧ c ≠ '_' := by
  rcases plain with digit | rfl | rfl | rfl | rfl
  · rw [Text.isDigit_iff] at digit
    constructor
    · simp only [Text.isBlank, Bool.or_eq_false_iff, Bool.and_eq_false_iff, decide_eq_false_iff_not,
        beq_eq_false_iff_ne]
      omega
    · rintro rfl
      exact absurd digit (by decide)
  all_goals exact ⟨by decide, by decide⟩

/-- Nothing is trimmed or dropped from the characters of a decimal. -/
theorem plain_characters (cs : List Char) (plain : ∀ c ∈ cs, IsPlain c) :
    (Text.trim (String.ofList cs)).toList.filter (· != '_') = cs := by
  have nonblank : ∀ c ∈ cs, Text.isBlank c = false := fun c member =>
    (isPlain_nonblank c (plain c member)).1
  have starts : ∀ c ∈ cs.head?, Text.isBlank c = false := fun c first =>
    nonblank c (List.mem_of_mem_head? first)
  have ends : ∀ c ∈ cs.getLast?, Text.isBlank c = false := fun c last =>
    nonblank c (List.mem_of_mem_getLast? last)
  rw [Text.trim, String.toList_ofList, String.toList_ofList, Text.dropWhile_of_head starts,
    Text.dropEndWhile_of_last ends, List.filter_eq_self]
  intro c member
  simpa using (isPlain_nonblank c (plain c member)).2

theorem readSign_signedText (negative : Bool) (c : Char) (tail : List Char)
    (digit : c.isDigit = true) :
    readSign (signedText negative (c :: tail)) = (negative, c :: tail) := by
  cases negative with
  | true => rfl
  | false =>
    change readSign (c :: tail) = _
    rw [readSign]
    all_goals exact fun rest => Json.digit_cons_ne c _ tail _ digit (by decide)

/-- What begins with a digit is no word. -/
theorem isNotFinite_digit (c : Char) (tail : List Char) (digit : c.isDigit = true) :
    isNotFinite ((c :: tail).map Char.toLower) = false := by
  have small : c.isUpper = false := by
    have bounds := (Text.isDigit_iff c).mp digit
    rw [← Bool.not_eq_true, Text.isUpper_iff]
    omega
  rw [List.map_cons, Text.toLower_of_not_upper c small]
  have other : ∀ letter : Char, letter.isDigit = false → letter ≠ c := by
    rintro letter nondigit rfl
    rw [nondigit] at digit
    contradiction
  have first := other 'i' (by decide)
  have second := other 'n' (by decide)
  have third := other 's' (by decide)
  simp [isNotFinite, List.isPrefixOf, first.symm, second, third]

/-- What `readDigits` finds after the digits before the point. -/
theorem readDigits_plain (whole fraction : List Char) (digits : AreDigits whole)
    (digits' : ∀ c ∈ fraction, c.isDigit = true) :
    readDigits (whole ++ fractionText fraction) = some (whole, fraction, 0) := by
  have some_digits : whole.isEmpty = false := List.isEmpty_eq_false_iff.mpr digits.nonempty
  unfold fractionText
  by_cases none : fraction = []
  · subst none
    obtain ⟨taken, dropped⟩ := Json.takeWhile_digits whole [] digits.all Json.endsDigits_nil
    simp only [List.isEmpty_nil, if_true, readDigits, taken, dropped, some_digits, Bool.false_and,
      Bool.false_eq_true, if_false]
  · have some_fraction : fraction.isEmpty = false := List.isEmpty_eq_false_iff.mpr none
    obtain ⟨taken, dropped⟩ := Json.takeWhile_digits whole ('.' :: fraction) digits.all
      (Json.endsDigits_cons '.' _ (by decide))
    obtain ⟨taken', dropped'⟩ := Json.takeWhile_digits fraction [] digits' Json.endsDigits_nil
    rw [List.append_nil] at taken' dropped'
    simp only [some_fraction, Bool.false_eq_true, if_false, readDigits, taken, dropped, taken',
      dropped', some_digits, Bool.false_and, List.isEmpty_nil, if_true]

theorem readDigits_exponent (whole fraction sign ds : List Char) (below : Bool)
    (digits : AreDigits whole) (digits' : ∀ c ∈ fraction, c.isDigit = true)
    (isSign : (sign, below) ∈ exponentSigns) (digits'' : AreDigits ds) :
    readDigits (whole ++ (fractionText fraction ++ 'E' :: (sign ++ ds))) =
      some (whole, fraction, exponentValue below ds) := by
  have some_digits : whole.isEmpty = false := List.isEmpty_eq_false_iff.mpr digits.nonempty
  have exponent := Json.readExponent_append 'E' sign below ds [] (.inr rfl) isSign digits''
    Json.endsDigits_nil
  rw [List.append_nil] at exponent
  unfold fractionText
  by_cases none : fraction = []
  · subst none
    obtain ⟨taken, dropped⟩ := Json.takeWhile_digits whole ('E' :: (sign ++ ds)) digits.all
      (Json.endsDigits_cons 'E' _ (by decide))
    simp [readDigits, taken, dropped, some_digits, exponent]
  · have some_fraction : fraction.isEmpty = false := List.isEmpty_eq_false_iff.mpr none
    obtain ⟨taken, dropped⟩ := Json.takeWhile_digits whole
      ('.' :: (fraction ++ 'E' :: (sign ++ ds))) digits.all
      (Json.endsDigits_cons '.' _ (by decide))
    obtain ⟨taken', dropped'⟩ := Json.takeWhile_digits fraction ('E' :: (sign ++ ds)) digits'
      (Json.endsDigits_cons 'E' _ (by decide))
    simp only [some_fraction, Bool.false_eq_true, if_false, List.cons_append, readDigits, taken,
      dropped, taken', dropped', some_digits, Bool.false_and, List.isEmpty_cons, exponent]

/-- A text of plain characters that begins with a digit, perhaps after a sign, is read as the
decimal of its digits. -/
theorem decimal?_signedText (negative : Bool) (cs whole fraction : List Char) (exponent : Int)
    (plain : ∀ c ∈ cs, IsPlain c) (read : readDigits cs = some (whole, fraction, exponent))
    (first : ∃ c tail, cs = c :: tail ∧ c.isDigit = true) :
    decimal? (String.ofList (signedText negative cs)) =
      some (.finite { negative, coefficient := digitsValue (whole ++ fraction)
                      exponent := exponent - fraction.length }) := by
  obtain ⟨c, tail, rfl, digit⟩ := first
  have plain' : ∀ d ∈ signedText negative (c :: tail), IsPlain d := by
    intro d member
    cases negative with
    | false => exact plain d member
    | true =>
      rcases List.mem_cons.mp member with rfl | other
      · exact .inr (.inr (.inl rfl))
      · exact plain d other
  unfold decimal?
  simp only [plain_characters _ plain', readSign_signedText negative c tail digit,
    isNotFinite_digit c tail digit, read, Bool.false_eq_true, if_false]

/-- The digits of a decimal around its point are those before it and those behind it. -/
theorem withPoint_parts (ds : List Char) (point : Int) (digits : AreDigits ds)
    (inside : point ≤ ds.length) :
    ∃ whole fraction, Decimal.withPoint ds point = whole ++ fractionText fraction ∧
      AreDigits whole ∧ (∀ c ∈ fraction, c.isDigit = true) ∧
      digitsValue (whole ++ fraction) = digitsValue ds ∧
      (fraction.length : Int) = ds.length - point := by
  unfold Decimal.withPoint
  -- The point stands in front of the digits, behind them or among them.
  split
  · refine ⟨['0'], List.replicate (-point).toNat '0' ++ ds, ?_, ⟨by simp, by simp⟩, ?_, ?_, ?_⟩
    · simp [fractionText, digits.nonempty]
    · exact Json.isDigit_zeros_append _ ds digits.all
    · exact Json.digitsValue_zeros_append (1 + (-point).toNat) ds ▸ by
        rw [List.replicate_add, List.append_assoc]
        rfl
    · rw [List.length_append, List.length_replicate]
      omega
  · split
    · have same : ds.length = point.toNat := by omega
      refine ⟨ds, [], ?_, digits, by simp, by rw [List.append_nil], ?_⟩
      · simp [same, fractionText]
      · rw [List.length_nil]
        omega
    · have nonempty : ds.drop point.toNat ≠ [] := by
        rw [ne_eq, List.drop_eq_nil_iff]
        omega
      refine ⟨ds.take point.toNat, ds.drop point.toNat, ?_, ⟨?_, ?_⟩, ?_, ?_, ?_⟩
      · simp only [fractionText, List.isEmpty_eq_false_iff.mpr nonempty, Bool.false_eq_true,
          if_false]
      · rw [ne_eq, List.take_eq_nil_iff, not_or]
        exact ⟨by omega, digits.nonempty⟩
      · exact fun c member => digits.all c (List.mem_of_mem_take member)
      · exact fun c member => digits.all c (List.mem_of_mem_drop member)
      · rw [List.take_append_drop]
      · rw [List.length_drop]
        omega

theorem parts_isPlain (whole fraction : List Char) (digits : ∀ c ∈ whole, c.isDigit = true)
    (digits' : ∀ c ∈ fraction, c.isDigit = true) :
    ∀ c ∈ whole ++ fractionText fraction, IsPlain c := by
  intro c member
  rcases List.mem_append.mp member with digit | part
  · exact .inl (digits c digit)
  · unfold fractionText at part
    split at part
    · contradiction
    · rcases List.mem_cons.mp part with rfl | digit
      · exact .inr (.inl rfl)
      · exact .inl (digits' c digit)

theorem scientific_isPlain (whole fraction sign ds : List Char) (below : Bool)
    (digits : ∀ c ∈ whole, c.isDigit = true) (digits' : ∀ c ∈ fraction, c.isDigit = true)
    (isSign : (sign, below) ∈ exponentSigns) (exponent : AreDigits ds) :
    ∀ c ∈ whole ++ (fractionText fraction ++ 'E' :: (sign ++ ds)), IsPlain c := by
  intro c member
  rw [← List.append_assoc] at member
  rcases List.mem_append.mp member with part | part
  · exact parts_isPlain whole fraction digits digits' c part
  rcases List.mem_cons.mp part with rfl | part
  · exact .inr (.inr (.inr (.inr rfl)))
  rcases List.mem_append.mp part with part | digit
  · simp only [exponentSigns, List.mem_cons, Prod.mk.injEq, List.not_mem_nil, or_false] at isSign
    rcases isSign with ⟨rfl, -⟩ | ⟨rfl, -⟩ | ⟨rfl, -⟩
    · exact .inr (.inr (.inl (List.mem_singleton.mp part)))
    · exact .inr (.inr (.inr (.inl (List.mem_singleton.mp part))))
    · contradiction
  · exact .inl (exponent.all c digit)

theorem signed_append (negative : Bool) (cs : List Char) :
    (if negative then "-" else "") ++ String.ofList cs = String.ofList (signedText negative cs) := by
  cases negative <;> simp [signedText]

/-- The text of a decimal is read as the decimal, digit by digit. -/
theorem decimal?_text (d : Decimal) : decimal? d.text = some (.finite d) := by
  have digits := Json.areDigits_toDigits d.coefficient
  have value := Json.digitsValue_toDigits d.coefficient
  have length_pos : 0 < (Nat.toDigits 10 d.coefficient).length := Nat.length_toDigits_pos
  unfold Decimal.text
  generalize Nat.toDigits 10 d.coefficient = ds at digits value length_pos
  dsimp only
  split
  · -- The point stands among the digits, or behind zeros in front of them.
    rename_i layout
    simp only [Bool.and_eq_true, decide_eq_true_iff] at layout
    obtain ⟨whole, fraction, shape, digits', digits'', same, length⟩ :=
      withPoint_parts ds (ds.length + d.exponent) digits (by omega)
    have plain := parts_isPlain whole fraction digits'.all digits''
    have read := readDigits_plain whole fraction digits' digits''
    obtain ⟨c, tail, rfl⟩ := List.exists_cons_of_ne_nil digits'.nonempty
    rw [shape, signed_append, decimal?_signedText d.negative _ (c :: tail) fraction 0 plain read
      ⟨c, _, rfl, digits'.all c (by simp)⟩, same, value]
    congr
    omega
  · -- One digit stands in front of the point, and an exponent behind the others.
    rename_i layout
    simp only [Bool.and_eq_true, decide_eq_true_iff, not_and_or] at layout
    obtain ⟨whole, fraction, shape, digits', digits'', same, length⟩ :=
      withPoint_parts ds 1 digits (by omega)
    generalize shifted : (ds.length : Int) + d.exponent - 1 = shift
    have shift_ne : shift ≠ 0 := by omega
    have text : (if d.negative then "-" else "") ++ String.ofList (Decimal.withPoint ds 1) ++
        (if shift = 0 then "" else if shift < 0 then "E-" else "E+") ++
        (if shift = 0 then "" else toString shift.natAbs) =
        String.ofList (signedText d.negative (whole ++ (fractionText fraction ++
          'E' :: ((if shift < 0 then ['-'] else ['+']) ++ Nat.toDigits 10 shift.natAbs)))) := by
      rw [← signed_append, ← String.toList_inj, shape]
      by_cases below : shift < 0 <;> simp [shift_ne, below, String.toList_append]
    have isSign : ((if shift < 0 then ['-'] else ['+'] : List Char), decide (shift < 0)) ∈
        exponentSigns := by
      by_cases below : shift < 0 <;> simp [below, exponentSigns]
    have read := readDigits_exponent whole fraction _ (Nat.toDigits 10 shift.natAbs) _ digits'
      digits'' isSign (Json.areDigits_toDigits _)
    have plain := scientific_isPlain whole fraction _ (Nat.toDigits 10 shift.natAbs) _ digits'.all
      digits'' isSign (Json.areDigits_toDigits _)
    obtain ⟨c, tail, rfl⟩ := List.exists_cons_of_ne_nil digits'.nonempty
    rw [text, decimal?_signedText d.negative _ (c :: tail) fraction _ plain read
      ⟨c, _, rfl, digits'.all c (by simp)⟩, same, value, Json.exponentValue_natAbs]
    congr
    omega

end Number

namespace Model.ScalarType

/-! ## Identifiers -/

/-- Whether a character is a hexadecimal digit in lower case. -/
def IsLowerHex (c : Char) : Prop :=
  (48 ≤ c.toNat ∧ c.toNat ≤ 57) ∨ (97 ≤ c.toNat ∧ c.toNat ≤ 102)

theorem isSome_hexValue? (c : Char) :
    (Json.hexValue? c).isSome = true ↔ IsLowerHex c ∨ (65 ≤ c.toNat ∧ c.toNat ≤ 70) := by
  unfold Json.hexValue? IsLowerHex
  simp only [Text.isDigit_iff, Text.char_le_iff, Bool.and_eq_true, decide_eq_true_iff]
  split_ifs <;> simp_all

theorem isLowerHex_toLower (c : Char) (hex : (Json.hexValue? c.toLower).isSome = true) :
    IsLowerHex c.toLower := by
  rw [isSome_hexValue?] at hex
  rcases hex with lower | upper
  · exact lower
  · have capital := (Text.isUpper_iff c.toLower).mpr ⟨upper.1, by omega⟩
    exact absurd (capital.symm.trans (Text.isUpper_toLower c)) (by decide)

theorem IsLowerHex.not_upper (c : Char) (hex : IsLowerHex c) : c.isUpper = false := by
  unfold IsLowerHex at hex
  rw [← Bool.not_eq_true, Text.isUpper_iff]
  omega

theorem IsLowerHex.ne (c other : Char) (hex : IsLowerHex c) (different : ¬IsLowerHex other) :
    c ≠ other := by
  rintro rfl
  exact different hex

/-- The places of hyphens among characters that have none. -/
theorem hyphens_nil (cs : List Char) (start : Nat) (none : ∀ c ∈ cs, c ≠ '-') :
    (cs.zipIdx start).filter (fun (c, _) => c == '-') = [] := by
  rw [List.filter_eq_nil_iff]
  rintro ⟨c, i⟩ member
  have := none c (List.fst_mem_of_mem_zipIdx member)
  simpa using this

theorem uuidText_toList (ds : List Char) :
    (uuidText ds).toList = ds.take 8 ++ '-' :: ((ds.drop 8).take 4 ++ '-' :: ((ds.drop 12).take 4 ++
      '-' :: ((ds.drop 16).take 4 ++ '-' :: (ds.drop 20).take 12))) := by
  simp [uuidText, String.intercalate_cons_cons, String.intercalate_singleton]

theorem groups_append (ds : List Char) (length : ds.length = 32) :
    ds.take 8 ++ ((ds.drop 8).take 4 ++ ((ds.drop 12).take 4 ++ ((ds.drop 16).take 4 ++
      (ds.drop 20).take 12))) = ds := by
  have last : (ds.drop 20).take 12 = ds.drop 20 := List.take_of_length_le (by simp [length])
  have step : ∀ n k, (ds.drop n).take k ++ ds.drop (n + k) = ds.drop n := by
    intro n k
    rw [← List.drop_drop, List.take_append_drop]
  rw [last, step 16 4, step 12 4, step 8 4, List.take_append_drop]

/-- The characters of an identifier without braces around it or the scheme before it. -/
def unwrapped (cs : List Char) : List Char :=
  match cs with
  | '\x7b' :: rest => if rest.getLast? == some '\x7d' then rest.dropLast else cs
  | cs => if "urn:uuid:".toList.isPrefixOf cs then cs.drop 9 else cs

/-- The digits of characters that may have hyphens between their groups. -/
def ungrouped? (cs : List Char) : Option (List Char) :=
  let hyphens := (cs.zipIdx.filter fun (c, _) => c == '-').map (·.2)
  let ds := cs.filter (· != '-')
  if ds.length == 32 && ds.all (fun c => (Json.hexValue? c).isSome) &&
      (hyphens.isEmpty || hyphens == [8, 13, 18, 23]) then
    some ds
  else none

theorem uuidDigits?_eq (s : String) :
    uuidDigits? s = ungrouped? (unwrapped (s.toList.map Char.toLower)) := rfl

theorem mem_unwrapped (cs : List Char) (c : Char) (member : c ∈ unwrapped cs) : c ∈ cs := by
  unfold unwrapped at member
  split at member
  · split at member
    · exact List.mem_cons_of_mem _ (List.mem_of_mem_dropLast member)
    · exact member
  · split at member
    · exact List.mem_of_mem_drop member
    · exact member

theorem unwrapped_lowerHex (c : Char) (cs : List Char) (hex : IsLowerHex c) :
    unwrapped (c :: cs) = c :: cs := by
  have brace : c ≠ '\x7b' := hex.ne c _ (by unfold IsLowerHex; decide)
  have letter : 'u' ≠ c := (hex.ne c 'u' (by unfold IsLowerHex; decide)).symm
  unfold unwrapped
  split
  · rename_i same
    exact absurd (List.cons.inj same).1 brace
  · simp [List.isPrefixOf, letter]

/-- The digits of an identifier are 32, in lower case. -/
theorem uuidDigits?_some (s : String) (ds : List Char) (read : uuidDigits? s = some ds) :
    ds.length = 32 ∧ ∀ c ∈ ds, IsLowerHex c := by
  rw [uuidDigits?_eq] at read
  unfold ungrouped? at read
  dsimp only at read
  split at read
  · rename_i fits
    simp only [Bool.and_eq_true, beq_iff_eq, List.all_eq_true] at fits
    cases read
    refine ⟨fits.1.1, ?_⟩
    intro c member
    obtain ⟨d, -, rfl⟩ := List.mem_map.mp (mem_unwrapped _ c (List.mem_of_mem_filter member))
    exact isLowerHex_toLower d (fits.1.2 _ member)
  · contradiction

theorem ungrouped?_groups (a b c d e : List Char) (first : a.length = 8) (second : b.length = 4)
    (third : c.length = 4) (fourth : d.length = 4) (fifth : e.length = 12)
    (hex : ∀ x ∈ a ++ (b ++ (c ++ (d ++ e))), IsLowerHex x) :
    ungrouped? (a ++ '-' :: (b ++ '-' :: (c ++ '-' :: (d ++ '-' :: e)))) =
      some (a ++ (b ++ (c ++ (d ++ e)))) := by
  have noHyphen : ∀ x ∈ a ++ (b ++ (c ++ (d ++ e))), x ≠ '-' := fun x member =>
    (hex x member).ne x '-' (by unfold IsLowerHex; decide)
  simp only [List.forall_mem_append] at noHyphen
  obtain ⟨inA, inB, inC, inD, inE⟩ := noHyphen
  have digits : (a ++ '-' :: (b ++ '-' :: (c ++ '-' :: (d ++ '-' :: e)))).filter (· != '-') =
      a ++ (b ++ (c ++ (d ++ e))) := by
    have kept : ∀ cs : List Char, (∀ x ∈ cs, x ≠ '-') → cs.filter (· != '-') = cs := by
      intro cs none
      rw [List.filter_eq_self]
      simpa using none
    simp [List.filter_append, kept a inA, kept b inB, kept c inC, kept d inD, kept e inE]
  have places : ((a ++ '-' :: (b ++ '-' :: (c ++ '-' :: (d ++ '-' :: e)))).zipIdx.filter
      fun (x, _) => x == '-').map (·.2) = [8, 13, 18, 23] := by
    simp [List.zipIdx_append, List.zipIdx_cons, List.filter_append, hyphens_nil _ _ inA,
      hyphens_nil _ _ inB, hyphens_nil _ _ inC, hyphens_nil _ _ inD, hyphens_nil _ _ inE, first,
      second, third, fourth]
  have length : (a ++ (b ++ (c ++ (d ++ e)))).length = 32 := by
    simp only [List.length_append, first, second, third, fourth, fifth]
  have known : (a ++ (b ++ (c ++ (d ++ e)))).all (fun x => (Json.hexValue? x).isSome) = true := by
    rw [List.all_eq_true]
    exact fun x member => (isSome_hexValue? x).mpr (.inl (hex x member))
  unfold ungrouped?
  simp only [digits, places, length, known]
  rfl

/-- The text of an identifier has its digits, in groups that hyphens separate. -/
theorem uuidDigits?_uuidText (ds : List Char) (length : ds.length = 32)
    (hex : ∀ c ∈ ds, IsLowerHex c) : uuidDigits? (uuidText ds) = some ds := by
  have groups := groups_append ds length
  have lowered : (uuidText ds).toList.map Char.toLower = (uuidText ds).toList := by
    have lower : ∀ c ∈ (uuidText ds).toList, c.toLower = c := by
      intro c member
      have known : c ∈ ds ∨ c = '-' := by
        rw [uuidText_toList] at member
        rw [← groups]
        simp only [List.mem_append, List.mem_cons] at member ⊢
        tauto
      rcases known with digit | rfl
      · exact Text.toLower_of_not_upper c (hex c digit).not_upper
      · rfl
    rw [List.map_congr_left lower, List.map_id']
  have first : unwrapped (uuidText ds).toList = (uuidText ds).toList := by
    obtain ⟨c, tail, rfl⟩ := List.exists_cons_of_length_pos (show 0 < ds.length by omega)
    rw [uuidText_toList]
    exact unwrapped_lowerHex c _ (hex c (by simp))
  rw [uuidDigits?_eq, lowered, first, uuidText_toList]
  exact (ungrouped?_groups _ _ _ _ _ (by simp [length]) (by simp [length]) (by simp [length])
    (by simp [length]) (by simp [length]) (by rwa [groups])).trans (by rw [groups])

/-! ## What is read -/

open Time (Clock Date Moment)

theorem momentOr_ok (kind : ProblemKind) (found : Option Moment) (v : Value)
    (read : momentOr kind found = .ok v) : ∃ m, found = some m ∧ v = .moment m := by
  cases found with
  | none => contradiction
  | some m =>
    cases read
    exact ⟨m, rfl, rfl⟩

theorem dayOf_ok (found : Option Moment) (v : Value) (read : dayOf found = .ok v) :
    ∃ m, found = some m ∧ v = .date m.date := by
  cases found with
  | none => contradiction
  | some m =>
    rw [dayOf] at read
    split at read
    · cases read
      exact ⟨m, rfl, rfl⟩
    · contradiction

/-- A moment that is read is a possible one. -/
theorem readMoment_ok (j : Json) (v : Value) (read : readMoment j = .ok v) :
    ∃ m : Moment, m.IsValid ∧ v = .moment m := by
  unfold readMoment at read
  split at read
  · obtain ⟨m, found, rfl⟩ := momentOr_ok _ _ v read
    exact ⟨m, Moment.ofText_isValid _ m found, rfl⟩
  · split at read
    · obtain ⟨m, found, rfl⟩ := momentOr_ok _ _ v read
      exact ⟨m, Moment.ofInt_isValid _ m found, rfl⟩
    · contradiction
  · obtain ⟨m, found, rfl⟩ := momentOr_ok _ _ v read
    exact ⟨m, Moment.ofBinary_isValid _ m found, rfl⟩
  · contradiction

theorem readDate_ok (j : Json) (v : Value) (read : readDate j = .ok v) :
    ∃ d : Date, d.IsValid ∧ v = .date d := by
  unfold readDate at read
  split at read
  · obtain ⟨m, found, rfl⟩ := dayOf_ok _ v read
    exact ⟨m.date, (Moment.ofText_isValid _ m found).1, rfl⟩
  · split at read
    · obtain ⟨m, found, rfl⟩ := dayOf_ok _ v read
      exact ⟨m.date, (Moment.ofInt_isValid _ m found).1, rfl⟩
    · contradiction
  · obtain ⟨m, found, rfl⟩ := dayOf_ok _ v read
    exact ⟨m.date, (Moment.ofBinary_isValid _ m found).1, rfl⟩
  · contradiction

theorem clockOfSeconds_ok (x : Binary64) (v : Value) (read : clockOfSeconds x = .ok v) :
    ∃ c : Clock, c.IsValid ∧ v = .clock c := by
  unfold clockOfSeconds at read
  split at read
  · dsimp only at read
    split at read
    · contradiction
    · rename_i within
      simp only [Bool.or_eq_true, decide_eq_true_iff, not_or, not_le] at within
      cases read
      exact ⟨_, Clock.ofSeconds_isValid _ _ none (by omega) (by omega) (by simp), rfl⟩
  · contradiction

theorem readClock_ok (j : Json) (v : Value) (read : readClock j = .ok v) :
    ∃ c : Clock, c.IsValid ∧ v = .clock c := by
  unfold readClock at read
  split at read
  · split at read
    · rename_i c found
      cases read
      exact ⟨c, Clock.read_isValid _ c found, rfl⟩
    · contradiction
  · split at read
    · exact clockOfSeconds_ok _ v read
    · contradiction
  · exact clockOfSeconds_ok _ v read
  · contradiction

theorem readUuid_ok (j : Json) (v : Value) (read : readUuid j = .ok v) :
    ∃ ds : List Char, ds.length = 32 ∧ (∀ c ∈ ds, IsLowerHex c) ∧ v = .uuid (uuidText ds) := by
  unfold readUuid at read
  split at read
  · split at read
    · rename_i ds found
      cases read
      obtain ⟨length, hex⟩ := uuidDigits?_some _ ds found
      exact ⟨ds, length, hex, rfl⟩
    · contradiction
  · contradiction

theorem float?_isCanonical (s : String) (x : Binary64) (read : Number.float? s = some x) :
    x.IsCanonical := by
  unfold Number.float? at read
  simp only [Option.bind_eq_bind, Option.bind_eq_some_iff] at read
  obtain ⟨cs, -, read⟩ := read
  split at read
  · cases read
    trivial
  · split at read
    · cases read
      trivial
    · simp only [Option.bind_eq_some_iff] at read
      obtain ⟨parts, -, equal⟩ := read
      cases equal
      exact Binary64.ofDecimal_isCanonical _ _ _

theorem ofInt_isCanonical (n : Int) : (Binary64.ofInt n).IsCanonical := by
  unfold Binary64.ofInt
  exact Binary64.ofQuotient_isCanonical _ _ 1 Nat.one_pos

/-- A number that is read is canonical, unless it is not finite. -/
theorem readFloat_ok (j : Json) (v : Value) (proper : j.IsProper) (read : readFloat j = .ok v) :
    ∃ x : Binary64, x.IsCanonical ∧ v = .float x := by
  unfold readFloat at read
  split at read
  · cases read
    exact ⟨_, proper, rfl⟩
  · cases read
    exact ⟨_, ofInt_isCanonical _, rfl⟩
  · cases read
    exact ⟨_, ofInt_isCanonical _, rfl⟩
  · split at read
    · rename_i x found
      cases read
      exact ⟨x, float?_isCanonical _ x found, rfl⟩
    · contradiction
  · contradiction

theorem readText_ok (j : Json) (v : Value) (read : readText j = .ok v) : ∃ s, v = .text s := by
  unfold readText at read
  split at read
  · cases read
    exact ⟨_, rfl⟩
  · contradiction

theorem readInt_ok (j : Json) (v : Value) (read : readInt j = .ok v) : ∃ n, v = .int n := by
  unfold readInt at read
  split at read
  · cases read
    exact ⟨_, rfl⟩
  · cases read
    exact ⟨_, rfl⟩
  · rename_i x
    cases whole : wholeNumber x with
    | error problems =>
      rw [whole] at read
      contradiction
    | ok n =>
      rw [whole] at read
      cases read
      exact ⟨n, rfl⟩
  · split at read
    · contradiction
    · split at read
      · cases read
        exact ⟨_, rfl⟩
      · contradiction
  · contradiction

theorem truthOfInt_ok (n : Int) (v : Value) (read : truthOfInt n = .ok v) : ∃ b, v = .bool b := by
  unfold truthOfInt at read
  split at read
  · cases read
    exact ⟨_, rfl⟩
  · split at read
    · cases read
      exact ⟨_, rfl⟩
    · contradiction

theorem readBool_ok (j : Json) (v : Value) (read : readBool j = .ok v) : ∃ b, v = .bool b := by
  unfold readBool at read
  split at read
  · cases read
    exact ⟨_, rfl⟩
  · split at read
    · exact truthOfInt_ok _ v read
    · contradiction
  · split at read
    · exact truthOfInt_ok _ v read
    · contradiction
  · dsimp only at read
    split at read
    · cases read
      exact ⟨_, rfl⟩
    · split at read
      · cases read
        exact ⟨_, rfl⟩
      · contradiction
  · contradiction

theorem readDecimalText_ok (s : String) (v : Value) (read : readDecimalText s = .ok v) :
    ∃ d, v = .decimal d := by
  unfold readDecimalText at read
  split at read
  · cases read
    exact ⟨_, rfl⟩
  · cases read
  · cases read

theorem readDecimal_ok (form : Form) (j : Json) (v : Value) (read : readDecimal form j = .ok v) :
    ∃ d, v = .decimal d := by
  unfold readDecimal at read
  split at read
  · cases read
    exact ⟨_, rfl⟩
  · split at read
    · cases read
      exact ⟨_, rfl⟩
    · exact readDecimalText_ok _ v read
    · contradiction
  · exact readDecimalText_ok _ v read
  · contradiction

/-! ## What is read again -/

theorem readDecimal_text (form : Form) (d : Decimal) :
    readDecimal form (.str d.text) = .ok (.decimal d) := by
  change readDecimalText d.text = _
  unfold readDecimalText
  rw [Number.decimal?_text]

theorem readMoment_text (m : Moment) (valid : m.IsValid) :
    readMoment (.str m.text) = .ok (.moment m) := by
  simp only [readMoment, Moment.ofText_text m valid, momentOr]

theorem readDate_text (d : Date) (valid : d.IsValid) : readDate (.str d.text) = .ok (.date d) := by
  simp only [readDate, Moment.ofText_date d valid, dayOf]
  rfl

theorem readClock_text (c : Clock) (valid : c.IsValid) :
    readClock (.str c.text) = .ok (.clock c) := by
  simp only [readClock, Clock.read_text c valid]

theorem readUuid_text (ds : List Char) (length : ds.length = 32) (hex : ∀ c ∈ ds, IsLowerHex c) :
    readUuid (.str (uuidText ds)) = .ok (.uuid (uuidText ds)) := by
  simp only [readUuid, uuidDigits?_uuidText ds length hex]

end Model.ScalarType

end GraphQLModels
