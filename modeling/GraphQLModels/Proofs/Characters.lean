import GraphQLModels.Text.Blank
import Mathlib.Data.List.Basic

/-!
# Characters by their codes

The characters of a text that is written out, the kinds of letters as ranges of codes, letters in
lower case, and what is left of characters when those of a kind are dropped from the front or from
the end.
-/

namespace GraphQLModels.Text

/-- A text that is written out has the characters that it is written with. With this equation they
are taken from the text as it stands, not decoded from its bytes. -/
theorem toList_of_eq {text : String} {cs : List Char} (written : text = String.ofList cs) :
    text.toList = cs := by
  rw [written, String.toList_ofList]

/-! ## Codes -/

theorem char_le_iff (c d : Char) : c ≤ d ↔ c.toNat ≤ d.toNat := by
  rw [Char.le_def, UInt32.le_iff_toNat_le]
  rfl

theorem isDigit_iff (c : Char) : c.isDigit = true ↔ 48 ≤ c.toNat ∧ c.toNat ≤ 57 :=
  Char.isDigit_iff_toNat

theorem isUpper_iff (c : Char) : c.isUpper = true ↔ 65 ≤ c.toNat ∧ c.toNat ≤ 90 := by
  change decide (c.val ≥ 'A'.val ∧ c.val ≤ 'Z'.val) = true ↔ _
  simp only [decide_eq_true_eq, ge_iff_le, UInt32.le_iff_toNat_le]
  rfl

theorem isLower_iff (c : Char) : c.isLower = true ↔ 97 ≤ c.toNat ∧ c.toNat ≤ 122 := by
  change (decide (c.val ≥ 'a'.val) && decide (c.val ≤ 'z'.val)) = true ↔ _
  simp only [Bool.and_eq_true, decide_eq_true_eq, ge_iff_le, UInt32.le_iff_toNat_le]
  rfl

theorem isAlphanum_iff (c : Char) : c.isAlphanum = true ↔
    c.isUpper = true ∨ c.isLower = true ∨ c.isDigit = true := by
  change (c.isUpper || c.isLower || c.isDigit) = true ↔ _
  rw [Bool.or_eq_true, Bool.or_eq_true, or_assoc]

/-- A capital is neither a small letter nor a digit. -/
theorem isUpper_exclusive (c : Char) (upper : c.isUpper = true) :
    c.isLower = false ∧ c.isDigit = false := by
  rw [isUpper_iff] at upper
  rw [← Bool.not_eq_true, ← Bool.not_eq_true, isLower_iff, isDigit_iff]
  omega

theorem ascii_of_alphanum (c : Char) (known : c.isAlphanum = true) : c.toNat < 128 := by
  rw [isAlphanum_iff, isUpper_iff, isLower_iff, isDigit_iff] at known
  omega

/-! ## Lower case -/

theorem toLower_of_not_upper (c : Char) (plain : c.isUpper = false) : c.toLower = c := by
  have outside : ¬(c.val ≥ 'A'.val ∧ c.val ≤ 'Z'.val) := of_decide_eq_false plain
  exact dif_neg outside

theorem toNat_toLower_of_upper (c : Char) (upper : c.isUpper = true) :
    c.toLower.toNat = c.toNat + 32 := by
  have inside : c.val ≥ 'A'.val ∧ c.val ≤ 'Z'.val := of_decide_eq_true upper
  have bounds := (isUpper_iff c).mp upper
  unfold Char.toLower
  rw [dif_pos inside]
  change (c.val + 32).toNat = c.toNat + 32
  rw [UInt32.toNat_add]
  exact Nat.mod_eq_of_lt (show c.toNat + 32 < 2 ^ 32 by omega)

theorem isUpper_toLower (c : Char) : c.toLower.isUpper = false := by
  cases upper : c.isUpper with
  | true =>
    have code := toNat_toLower_of_upper c upper
    rw [isUpper_iff] at upper
    rw [← Bool.not_eq_true, isUpper_iff]
    omega
  | false => rw [toLower_of_not_upper c upper, upper]

/-- A capital is found again from its small letter. -/
theorem toUpper_toLower (c : Char) (upper : c.isUpper = true) :
    c.toLower ≠ '_' ∧ c.toLower.toUpper = c := by
  have all : ∀ n : Fin 26, let c := Char.ofNat (65 + n.val)
      c.toLower ≠ '_' ∧ c.toLower.toUpper = c := by decide
  have bounds := (isUpper_iff c).mp upper
  have found := all ⟨c.toNat - 65, by omega⟩
  have same : Char.ofNat (65 + (c.toNat - 65)) = c := by
    rw [Nat.add_sub_cancel' bounds.1, Char.ofNat_toNat]
  rwa [same] at found

/-! ## Both ends of a text -/

theorem dropWhile_of_head {p : Char → Bool} {cs : List Char} (head : ∀ c ∈ cs.head?, p c = false) :
    cs.dropWhile p = cs := by
  cases cs with
  | nil => rfl
  | cons c rest => rw [List.dropWhile_cons, head c rfl, if_neg Bool.false_ne_true]

theorem dropEndWhile_of_last {p : Char → Bool} {cs : List Char}
    (last : ∀ c ∈ cs.getLast?, p c = false) : dropEndWhile p cs = cs := by
  have head : ∀ c ∈ cs.reverse.head?, p c = false := by rwa [List.head?_reverse]
  rw [dropEndWhile, dropWhile_of_head head, List.reverse_reverse]

theorem dropEndWhile_append {p : Char → Bool} {cs after : List Char}
    (last : ∀ c ∈ cs.getLast?, p c = false) (dropped : ∀ c ∈ after, p c = true) :
    dropEndWhile p (cs ++ after) = cs := by
  have all : ∀ c ∈ after.reverse, p c = true := fun c member =>
    dropped c (List.mem_reverse.mp member)
  rw [dropEndWhile, List.reverse_append, List.dropWhile_append_of_pos all]
  exact dropEndWhile_of_last last

end GraphQLModels.Text
