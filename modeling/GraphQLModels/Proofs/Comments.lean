import GraphQLModels.Proofs.Pairs
import GraphQLModels.Text.Comment
import GraphQLModels.Text.Line
import Mathlib.Data.List.Chain

/-!
# Comments

The text of a comment is one short line without asterisks, in which single spaces stand between
words. A text that is such a line already is its own comment, and no other text is.
-/

namespace GraphQLModels.Text

/-- Whether the only blanks are spaces, no two of them next to each other. -/
structure IsSpaced (cs : List Char) : Prop where
  spaces : ∀ c ∈ cs, isBlank c = true → c = ' '
  apart : cs.IsChain fun c next => isBlank c = false ∨ isBlank next = false

/-- A short line without asterisks, with single spaces between its words. -/
structure IsCommentLine (s : String) : Prop where
  unbroken : ∀ c ∈ s.toList, isLineBreak c = false
  spaced : IsSpaced s.toList
  starts : ∀ c ∈ s.toList.head?, isBlank c = false
  ends : ∀ c ∈ s.toList.getLast?, isBlank c = false
  unstarred : '*' ∉ s.toList
  short : s.length ≤ 120

theorem isBlank_of_isLineBreak (c : Char) (breaks : isLineBreak c = true) : isBlank c = true := by
  simp only [isLineBreak, isBlank, Bool.or_eq_true, Bool.and_eq_true, decide_eq_true_eq,
    beq_iff_eq] at breaks ⊢
  omega

/-! ## Joined blanks -/

theorem IsSpaced.infix {part cs : List Char} (spaced : IsSpaced cs) (within : part <:+: cs) :
    IsSpaced part where
  spaces c member := spaced.spaces c (within.subset member)
  apart := spaced.apart.infix within

/-- Spaced texts without a line feed have no line break at all. -/
theorem IsSpaced.unbroken {cs : List Char} (spaced : IsSpaced cs) :
    ∀ c ∈ cs, isLineBreak c = false := by
  intro c member
  by_contra broken
  have breaks : isLineBreak c = true := by simpa using broken
  have space := spaced.spaces c member (isBlank_of_isLineBreak c breaks)
  subst space
  exact absurd breaks (by decide)

theorem joinBlanks_of_nonblank (c : Char) (rest : List Char) (nonblank : isBlank c = false) :
    joinBlanks (c :: rest) = c :: joinBlanks rest := by
  cases rest <;> simp [joinBlanks, nonblank]

/-- Joining leaves the characters that are not blank, and spaces. -/
theorem mem_joinBlanks (cs : List Char) (c : Char) (member : c ∈ joinBlanks cs) :
    c = ' ' ∨ c ∈ cs ∧ isBlank c = false := by
  have behind : ∀ {first : Char} {rest : List Char}, c = ' ' ∨ c ∈ rest ∧ isBlank c = false →
      c = ' ' ∨ c ∈ first :: rest ∧ isBlank c = false :=
    Or.imp_right (And.imp_left (List.mem_cons_of_mem _))
  fun_induction joinBlanks cs with
  | case1 => cases member
  | case2 first blank next rest later ih => exact behind (ih member)
  | case3 first blank next rest later ih =>
    rcases List.mem_cons.mp member with space | other
    · exact .inl space
    · exact behind (ih other)
  | case4 first blank => exact .inl (List.mem_singleton.mp member)
  | case5 first rest nonblank ih =>
    rcases List.mem_cons.mp member with rfl | other
    · exact .inr ⟨List.mem_cons_self, by simpa using nonblank⟩
    · exact behind (ih other)

theorem joinBlanks_isSpaced (cs : List Char) : IsSpaced (joinBlanks cs) := by
  constructor
  · intro c member blank
    rcases mem_joinBlanks cs c member with space | ⟨-, nonblank⟩
    · exact space
    · simp [blank] at nonblank
  · fun_induction joinBlanks cs with
    | case1 => exact .nil
    | case2 first blank next rest later ih => exact ih
    | case3 first blank next rest later ih =>
      -- A space is written only in front of a character that is not blank.
      have nonblank : isBlank next = false := by simpa using later
      refine ih.cons fun c head => ?_
      rw [joinBlanks_of_nonblank next rest nonblank] at head
      cases head
      exact .inr nonblank
    | case4 first blank => exact .singleton _
    | case5 first rest nonblank ih => exact ih.cons fun _ _ => .inl (by simpa using nonblank)

theorem IsSpaced.joinBlanks_eq {cs : List Char} (spaced : IsSpaced cs) : joinBlanks cs = cs := by
  have apart := spaced.apart
  have spaces := spaced.spaces
  clear spaced
  fun_induction joinBlanks cs with
  | case1 => rfl
  | case2 first blank next rest later ih =>
    rcases (List.isChain_cons_cons.mp apart).1 with nonblank | nonblank
    · simp [blank] at nonblank
    · simp [later] at nonblank
  | case3 first blank next rest later ih =>
    rw [ih apart.tail fun c member => spaces c (List.mem_cons_of_mem _ member),
      spaces first List.mem_cons_self blank]
  | case4 first blank => rw [spaces first List.mem_cons_self blank]
  | case5 first rest nonblank ih =>
    rw [ih apart.tail fun c member => spaces c (List.mem_cons_of_mem _ member)]

/-! ## Shortened texts -/

theorem shorten_isSpaced {cs : List Char} (spaced : IsSpaced cs) : IsSpaced (shorten cs) := by
  unfold shorten
  split
  · have front := spaced.infix (List.take_prefix (commentWidth - 3) cs).isInfix
    constructor
    · intro c member blank
      rcases List.mem_append.mp member with inside | dot
      · exact front.spaces c inside blank
      · have same : c = '.' := by simpa using dot
        subst same
        exact absurd blank (by decide)
    · refine front.apart.append ?_ fun _ _ c head => ?_
      · simp [isBlank]
      · cases head
        exact .inr (by decide)
  · exact spaced

theorem mem_shorten (cs : List Char) (c : Char) (member : c ∈ shorten cs) : c ∈ cs ∨ c = '.' := by
  unfold shorten at member
  split at member
  · rcases List.mem_append.mp member with inside | dot
    · exact .inl (List.mem_of_mem_take inside)
    · exact .inr (by simpa using dot)
  · exact .inl member

theorem length_shorten (cs : List Char) : (shorten cs).length ≤ commentWidth := by
  unfold shorten
  split
  · simp only [List.length_append, List.length_take, List.length_cons, List.length_nil,
      commentWidth] at *
    omega
  · omega

/-! ## Comments -/

/-- The text that remains for a comment before it is trimmed. -/
def commentBody (s : String) : List Char :=
  shorten (joinBlanks (s.toList.filter fun c => c != '\r' && c != '*'))

theorem Strips.infix {text core : String} (strips : Strips text core) :
    core.toList <:+: text.toList := by
  obtain ⟨before, after, whole, -, -⟩ := strips.around
  exact ⟨before, after, by rw [whole, List.append_assoc]⟩

/-- The text of a comment is a comment line. -/
theorem comment_isCommentLine (s : String) : IsCommentLine (comment s) := by
  have strips : Strips (String.ofList (commentBody s)) (comment s) := trim_strips _
  have within := strips.infix
  rw [String.toList_ofList] at within
  have spaced : IsSpaced (comment s).toList :=
    IsSpaced.infix (shorten_isSpaced (joinBlanks_isSpaced _)) within
  refine ⟨spaced.unbroken, spaced, strips.starts, strips.ends, fun star => ?_, ?_⟩
  · rcases mem_shorten _ _ (within.subset star) with joined | dot
    · rcases mem_joinBlanks _ _ joined with space | ⟨kept, -⟩
      · exact absurd space (by decide)
      · simp at kept
    · exact absurd dot (by decide)
  · exact within.length_le.trans (length_shorten _)

/-- A comment line is its own comment. -/
theorem IsCommentLine.comment_eq {s : String} (line : IsCommentLine s) : comment s = s := by
  have kept : s.toList.filter (fun c => c != '\r' && c != '*') = s.toList := by
    refine List.filter_eq_self.mpr fun c member => ?_
    have noReturn : c ≠ '\r' := by
      rintro rfl
      exact absurd (line.unbroken _ member) (by decide)
    have noStar : c ≠ '*' := fun same => line.unstarred (same ▸ member)
    simp [noReturn, noStar]
  have fits : shorten s.toList = s.toList := if_neg (Nat.not_lt.mpr line.short)
  have strips : Strips s s := ⟨⟨[], [], by simp⟩, line.starts, line.ends⟩
  rw [comment, kept, line.spaced.joinBlanks_eq, fits, String.ofList_toList, strips.trim_eq]

theorem comment_eq_iff (s : String) : comment s = s ↔ IsCommentLine s :=
  ⟨fun same => same ▸ comment_isCommentLine s, IsCommentLine.comment_eq⟩

end GraphQLModels.Text
