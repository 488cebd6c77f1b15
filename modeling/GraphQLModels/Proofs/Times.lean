import GraphQLModels.Proofs.Numerals
import GraphQLModels.Time.Moment

/-!
# Dates and times read back

The numbers in a date or a time have fixed widths, so their digits are found by position. What has
been read lies in the calendar and within a day, and the text of such a date or time is read as the
same one.
-/

namespace GraphQLModels.Time

open Json (digitsValue digitsValue_lt digitsValue_toDigits digitsValue_zeros_append areDigits_toDigits)

/-! ## Numbers of a fixed width -/

theorem number?_eq (cs : List Char) :
    number? cs = if !cs.isEmpty && cs.all Char.isDigit then some (digitsValue cs) else none := rfl

theorem number?_some (cs : List Char) (n : Nat) (read : number? cs = some n) :
    n < 10 ^ cs.length := by
  rw [number?_eq] at read
  split at read
  · rename_i digits
    cases read
    simp only [Bool.and_eq_true, List.all_eq_true] at digits
    exact digitsValue_lt cs digits.2
  · contradiction

theorem padded_toList (width n : Nat) :
    (padded width n).toList =
      List.replicate (width - (Nat.toDigits 10 n).length) '0' ++ Nat.toDigits 10 n := by
  rw [padded, String.toList_ofList]

theorem padded_isDigit (width n : Nat) : ∀ c ∈ (padded width n).toList, c.isDigit = true := by
  rw [padded_toList]
  exact Json.isDigit_zeros_append _ _ (areDigits_toDigits n).all

/-- A number that fits takes the whole width. -/
theorem length_padded (width n : Nat) (width_pos : 0 < width) (fits : n < 10 ^ width) :
    (padded width n).toList.length = width := by
  have short : (Nat.toDigits 10 n).length ≤ width :=
    (Nat.length_toDigits_le_iff (by decide) width_pos).mpr fits
  rw [padded_toList, List.length_append, List.length_replicate]
  omega

theorem number?_padded (width n : Nat) : number? (padded width n).toList = some n := by
  have digits : (padded width n).toList.all Char.isDigit = true :=
    List.all_eq_true.mpr (padded_isDigit width n)
  have nonempty : (padded width n).toList ≠ [] := by
    rw [padded_toList]
    exact List.append_ne_nil_of_right_ne_nil _ Nat.toDigits_ne_nil
  have value : digitsValue (padded width n).toList = n := by
    rw [padded_toList, digitsValue_zeros_append, digitsValue_toDigits]
  rw [number?_eq, digits, value, List.isEmpty_eq_false_iff.mpr nonempty]
  rfl

theorem padded_two (n : Nat) (fits : n < 100) :
    ∃ a b, (padded 2 n).toList = [a, b] ∧ number? [a, b] = some n := by
  have length := length_padded 2 n (by decide) fits
  have read := number?_padded 2 n
  obtain ⟨a, b, shape⟩ := List.length_eq_two.mp length
  exact ⟨a, b, shape, shape ▸ read⟩

theorem padded_four (n : Nat) (fits : n < 10000) :
    ∃ a b c d, (padded 4 n).toList = [a, b, c, d] ∧ number? [a, b, c, d] = some n := by
  have length := length_padded 4 n (by decide) fits
  have read := number?_padded 4 n
  match shape : (padded 4 n).toList, length with
  | [a, b, c, d], _ => exact ⟨a, b, c, d, rfl, shape ▸ read⟩

/-! ## Dates -/

namespace Date

/-- Whether a day is one of the calendar. -/
def IsValid (d : Date) : Prop := of? d.year d.month d.day = some d

theorem of?_isValid (year month day : Nat) (d : Date) (found : of? year month day = some d) :
    d.IsValid := by
  unfold IsValid
  unfold of? at found ⊢
  split at found
  · rename_i inside
    cases found
    rw [if_pos inside]
  · contradiction

theorem IsValid.bounds (d : Date) (valid : d.IsValid) :
    d.year < 10000 ∧ d.month < 100 ∧ d.day < 100 := by
  unfold IsValid of? at valid
  split at valid
  · rename_i inside
    simp only [Bool.and_eq_true, decide_eq_true_iff] at inside
    have days : daysOfMonth d.year d.month ≤ 31 := by
      unfold daysOfMonth
      split_ifs <;> omega
    omega
  · contradiction

theorem text_toList (d : Date) :
    d.text.toList = (padded 4 d.year).toList ++ '-' :: ((padded 2 d.month).toList ++
      '-' :: (padded 2 d.day).toList) := by
  simp [text, String.toList_append, toString]

/-- The text of a day is read as the day. -/
theorem read_text (d : Date) (rest : List Char) (valid : d.IsValid) :
    read (d.text.toList ++ rest) = some (d, rest) := by
  obtain ⟨year_fits, month_fits, day_fits⟩ := valid.bounds
  obtain ⟨a, b, c, e, year_shape, year⟩ := padded_four d.year year_fits
  obtain ⟨f, g, month_shape, month⟩ := padded_two d.month month_fits
  obtain ⟨h, i, day_shape, day⟩ := padded_two d.day day_fits
  rw [text_toList, year_shape, month_shape, day_shape]
  simp only [List.cons_append, List.nil_append, read, year, month, day, Option.bind_eq_bind,
    Option.bind_some]
  rw [show of? d.year d.month d.day = some d from valid]
  rfl

theorem read_isValid (cs rest : List Char) (d : Date) (found : read cs = some (d, rest)) :
    d.IsValid := by
  unfold read at found
  split at found
  · simp only [Option.bind_eq_bind, Option.bind_eq_some_iff] at found
    obtain ⟨year, -, month, -, day, -, date, made, equal⟩ := found
    cases equal
    exact of?_isValid year month day d made
  · contradiction

theorem ofEpochDays_isValid (days : Int) (d : Date) (found : ofEpochDays days = some d) :
    d.IsValid := by
  unfold ofEpochDays at found
  dsimp only at found
  split at found
  · contradiction
  · simp only [Option.bind_eq_some_iff] at found
    obtain ⟨first, -, made⟩ := found
    exact of?_isValid _ _ _ d made

end Date

/-! ## Times of day -/

namespace Clock

/-- Whether a time of day lies within a day, and its offset too. -/
structure IsValid (c : Clock) : Prop where
  hour : c.hour < 24
  minute : c.minute < 60
  second : c.second < 60
  micro : c.micro < 1000000
  offset : ∀ amount, c.offset = some amount → amount.natAbs < 1440

/-- The characters of an offset in a document. -/
def offsetChars : Option Int → List Char
  | none => []
  | some 0 => ['Z']
  | some amount => (offsetText amount).toList

/-- The characters of a fraction in a document. -/
def fractionChars (micro : Nat) : List Char :=
  if micro = 0 then [] else '.' :: (padded 6 micro).toList

theorem clockText_toList (c : Clock) :
    c.clockText.toList = (padded 2 c.hour).toList ++ ':' :: ((padded 2 c.minute).toList ++
      ':' :: ((padded 2 c.second).toList ++ fractionChars c.micro)) := by
  have fraction : (if c.micro == 0 then "" else "." ++ padded 6 c.micro).toList =
      fractionChars c.micro := by
    unfold fractionChars
    by_cases whole : c.micro = 0 <;> simp [whole, String.toList_append]
  unfold clockText
  dsimp only
  rw [String.toList_append, fraction]
  simp [String.toList_append, toString]

theorem text_toList (c : Clock) :
    c.text.toList = c.clockText.toList ++ offsetChars c.offset := by
  unfold text offsetChars
  rw [String.toList_append]
  congr 1
  rcases c.offset with _ | amount
  · rfl
  · by_cases zero : amount = 0
    · subst zero
      rfl
    · split <;> simp_all

theorem offsetText_toList (amount : Int) :
    (offsetText amount).toList = (if amount < 0 then '-' else '+') ::
      ((padded 2 (amount.natAbs / 60)).toList ++ ':' :: (padded 2 (amount.natAbs % 60)).toList) := by
  unfold offsetText
  by_cases negative : amount < 0 <;> simp [negative, String.toList_append, toString]

theorem readOffset_offsetText (amount : Int) (bounded : amount.natAbs < 1440) :
    readOffset (offsetText amount).toList = some (some amount) := by
  obtain ⟨a, b, hours_shape, hours⟩ := padded_two (amount.natAbs / 60) (by omega)
  obtain ⟨c, d, minutes_shape, minutes⟩ := padded_two (amount.natAbs % 60) (by omega)
  rw [offsetText_toList, hours_shape, minutes_shape]
  simp only [List.cons_append, List.nil_append]
  by_cases negative : amount < 0
  · simp only [negative, if_true]
    simp [readOffset, hours, minutes, abs_of_neg negative]
    omega
  · simp only [negative, if_false]
    simp [readOffset, hours, minutes, abs_of_nonneg (not_lt.mp negative)]
    omega

theorem readOffset_offsetChars (offset : Option Int)
    (bounded : ∀ amount, offset = some amount → amount.natAbs < 1440) :
    readOffset (offsetChars offset) = some offset := by
  unfold offsetChars
  split
  · rfl
  · rfl
  · exact readOffset_offsetText _ (bounded _ rfl)

/-- What follows the seconds begins with no digit, point or comma. -/
theorem offsetChars_head (offset : Option Int) :
    ∀ c ∈ (offsetChars offset).head?, c = 'Z' ∨ c = '-' ∨ c = '+' := by
  unfold offsetChars
  split
  · simp
  · simp
  · rw [offsetText_toList]
    split <;> simp

theorem readFraction_fractionChars (micro : Nat) (offset : Option Int) (bounded : micro < 1000000) :
    readFraction (fractionChars micro ++ offsetChars offset) =
      some (micro, offsetChars offset) := by
  have head := offsetChars_head offset
  unfold fractionChars
  split
  · -- Nothing is written for a whole second.
    rename_i whole
    rw [List.nil_append, readFraction, whole]
    · intro rest equal
      rw [equal] at head
      simp at head
    · intro rest equal
      rw [equal] at head
      simp at head
  · have ends : Json.EndsDigits (offsetChars offset) := by
      intro c first
      rcases head c first with rfl | rfl | rfl <;> rfl
    obtain ⟨taken, dropped⟩ := Json.takeWhile_digits (padded 6 micro).toList
      (offsetChars offset) (padded_isDigit 6 micro) ends
    have length := length_padded 6 micro (by decide) bounded
    have nonempty : (padded 6 micro).toList.isEmpty = false := by
      rw [List.isEmpty_eq_false_iff]
      intro equal
      rw [equal] at length
      cases length
    rw [List.cons_append, readFraction]
    simp only [taken, dropped, nonempty, length, Bool.false_eq_true, if_false, Nat.sub_self,
      List.replicate_zero, List.append_nil]
    rw [List.take_of_length_le length.le, number?_padded]
    rfl

/-- The text of a time of day is read as that time. -/
theorem read_text (c : Clock) (valid : c.IsValid) : read c.text.toList = some c := by
  obtain ⟨a, b, hour_shape, hour⟩ := padded_two c.hour (by have := valid.hour; omega)
  obtain ⟨d, e, minute_shape, minute⟩ := padded_two c.minute (by have := valid.minute; omega)
  obtain ⟨f, g, second_shape, second⟩ := padded_two c.second (by have := valid.second; omega)
  have inside : (24 ≤ c.hour || 60 ≤ c.minute || 60 ≤ c.second) = false := by
    have := valid.hour
    have := valid.minute
    have := valid.second
    simp only [Bool.or_eq_false_iff, decide_eq_false_iff_not]
    omega
  rw [text_toList, clockText_toList, hour_shape, minute_shape, second_shape]
  simp only [List.cons_append, List.nil_append, read, hour, minute, second, Option.bind_eq_bind,
    Option.bind_some, readFraction_fractionChars c.micro c.offset valid.micro,
    readOffset_offsetChars c.offset valid.offset, Option.pure_def, inside, Bool.false_eq_true,
    if_false]

/-! ### What is read lies within a day -/

theorem readFraction_some (cs rest : List Char) (micro : Nat)
    (found : readFraction cs = some (micro, rest)) : micro < 1000000 := by
  have digits : ∀ (ds tail : List Char),
      (if ds.isEmpty then none
        else (number? (ds.take 6 ++ List.replicate (6 - ds.length) '0')).map fun n => (n, tail)) =
          some (micro, rest) → micro < 1000000 := by
    intro ds tail found
    split at found
    · contradiction
    · simp only [Option.map_eq_some_iff] at found
      obtain ⟨n, read, equal⟩ := found
      cases equal
      have bound := number?_some _ micro read
      rw [List.length_append, List.length_take, List.length_replicate,
        show min 6 ds.length + (6 - ds.length) = 6 by omega] at bound
      exact bound
  unfold readFraction at found
  split at found
  · exact digits _ _ found
  · exact digits _ _ found
  · cases found
    decide

theorem readOffset_some (cs : List Char) (amount : Int)
    (found : readOffset cs = some (some amount)) : amount.natAbs < 1440 := by
  unfold readOffset at found
  split at found
  · cases found
  · cases found
    decide
  · cases found
    decide
  · simp only [Option.bind_eq_bind, Option.bind_eq_some_iff] at found
    obtain ⟨hours, -, found⟩ := found
    -- With or without a colon, two digits of minutes follow.
    split at found
    all_goals
      split at found
      · obtain ⟨minutes, -, found⟩ := Option.bind_eq_some_iff.mp found
        split at found
        · contradiction
        · rename_i inside
          simp only [Bool.or_eq_true, decide_eq_true_iff] at inside
          split_ifs at found <;> cases found <;> omega
      · contradiction
  · contradiction

/-- A time of day that has been read lies within a day. -/
theorem read_isValid (cs : List Char) (c : Clock) (found : read cs = some c) : c.IsValid := by
  -- Both forms, with seconds and without, end in the same check of the bounds.
  have last : ∀ (hour minute second micro : Nat) (rest : List Char), micro < 1000000 →
      ((readOffset rest).bind fun offset =>
        if (decide (24 ≤ hour) || decide (60 ≤ minute) || decide (60 ≤ second)) = true then
          (none : Option Unit).bind fun _ =>
            pure ({ hour, minute, second, micro, offset } : Clock)
        else pure { hour, minute, second, micro, offset }) = some c → c.IsValid := by
    intro hour minute second micro rest micro_lt found
    obtain ⟨offset, zone, found⟩ := Option.bind_eq_some_iff.mp found
    split at found
    · contradiction
    · rename_i inside
      cases found
      simp only [Bool.or_eq_true, decide_eq_true_iff] at inside
      have bounds : hour < 24 ∧ minute < 60 ∧ second < 60 := by omega
      refine ⟨bounds.1, bounds.2.1, bounds.2.2, micro_lt, ?_⟩
      rintro amount rfl
      exact readOffset_some _ amount zone
  unfold read at found
  split at found
  · simp only [Option.bind_eq_bind, Option.bind_eq_some_iff] at found
    obtain ⟨hour, -, minute, -, found⟩ := found
    split at found
    · obtain ⟨⟨micro, rest⟩, fraction, found⟩ := Option.bind_eq_some_iff.mp found
      obtain ⟨second, -, found⟩ := Option.bind_eq_some_iff.mp found
      exact last hour minute second micro rest (readFraction_some _ rest micro fraction) found
    · exact last hour minute 0 0 _ (by decide) found
  · contradiction

theorem midnight_isValid : IsValid { hour := 0, minute := 0 } :=
  ⟨by decide, by decide, by decide, by decide, by simp⟩

theorem ofSeconds_isValid (seconds micro : Nat) (offset : Option Int) (within : seconds < 86400)
    (fraction : micro < 1000000) (bounded : ∀ amount, offset = some amount → amount.natAbs < 1440) :
    (ofSeconds seconds micro offset).IsValid where
  hour := by
    change seconds / 3600 < 24
    omega
  minute := Nat.mod_lt _ (by decide)
  second := Nat.mod_lt _ (by decide)
  micro := fraction
  offset := bounded

end Clock

/-! ## Moments -/

namespace Moment

/-- Whether a moment has a day of the calendar and a time within it. -/
def IsValid (m : Moment) : Prop := m.date.IsValid ∧ m.clock.IsValid

theorem text_toList (m : Moment) :
    m.text.toList = m.date.text.toList ++ 'T' :: m.clock.text.toList := by
  unfold text
  simp [String.toList_append]

/-- The text of a moment is read as that moment. -/
theorem read_text (m : Moment) (valid : m.IsValid) : read m.text.toList = some m := by
  rw [text_toList, read, Date.read_text m.date _ valid.1]
  simp [Clock.read_text m.clock valid.2]

theorem ofText_text (m : Moment) (valid : m.IsValid) : ofText m.text = some m := by
  unfold ofText
  simp only [read_text m valid]

/-- The text of a day is read as the moment at which it begins. -/
theorem ofText_date (d : Date) (valid : d.IsValid) :
    ofText d.text = some ⟨d, { hour := 0, minute := 0 }⟩ := by
  have day := Date.read_text d [] valid
  rw [List.append_nil] at day
  have no_time : read d.text.toList = none := by
    unfold read
    rw [day]
  unfold ofText
  simp only [no_time, day]

theorem read_isValid (cs : List Char) (m : Moment) (found : read cs = some m) : m.IsValid := by
  unfold read at found
  split at found
  · rename_i date sep rest day
    split at found
    · simp only [Option.map_eq_some_iff] at found
      obtain ⟨clock, time, equal⟩ := found
      cases equal
      exact ⟨Date.read_isValid _ _ date day, Clock.read_isValid _ clock time⟩
    · contradiction
  · contradiction

theorem ofEpochMicros_isValid (micros : Int) (m : Moment) (found : ofEpochMicros micros = some m) :
    m.IsValid := by
  unfold ofEpochMicros at found
  simp only [Option.bind_eq_bind, Option.bind_eq_some_iff] at found
  obtain ⟨date, day, equal⟩ := found
  cases equal
  refine ⟨Date.ofEpochDays_isValid _ date day, Clock.ofSeconds_isValid _ _ _ ?_ ?_ ?_⟩
  · omega
  · omega
  · rintro amount (_ | _)
    decide

theorem ofInt_isValid (n : Int) (m : Moment) (found : ofInt n = some m) : m.IsValid := by
  unfold ofInt at found
  split at found
  · exact ofEpochMicros_isValid _ m found
  · exact ofEpochMicros_isValid _ m found

theorem ofBinary_isValid (x : Number.Binary64) (m : Moment) (found : ofBinary x = some m) :
    m.IsValid := by
  unfold ofBinary at found
  split at found
  · exact ofEpochMicros_isValid _ m found
  · contradiction

theorem ofText_isValid (s : String) (m : Moment) (found : ofText s = some m) : m.IsValid := by
  unfold ofText at found
  dsimp only at found
  split at found
  · rename_i read
    cases found
    exact read_isValid _ m read
  · rename_i date _ day
    cases found
    exact ⟨Date.read_isValid _ _ date day, Clock.midnight_isValid⟩
  · split at found
    · contradiction
    · split at found
      · exact ofInt_isValid _ m found
      · exact ofBinary_isValid _ m found
      · contradiction

end Moment

end GraphQLModels.Time
