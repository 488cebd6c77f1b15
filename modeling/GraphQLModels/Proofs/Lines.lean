import GraphQLModels.Text.Line
import Mathlib.Data.List.Basic

/-!
# Lines of a text

Where a line feed ends what stands in front, the lines of a text are those in front and those behind.
A piece without line breaks stands within one line, and the lines around it do not tell what it is.
-/

namespace GraphQLModels.Text

/-- That a text has no line break can be evaluated on the characters of the text. -/
theorem unbroken_of_none {cs : List Char} (none : cs.any isLineBreak = false) :
    ∀ c ∈ cs, isLineBreak c = false := by
  simpa using none

theorem unbroken_append {s t : String} (front : ∀ c ∈ s.toList, isLineBreak c = false)
    (back : ∀ c ∈ t.toList, isLineBreak c = false) :
    ∀ c ∈ (s ++ t).toList, isLineBreak c = false := by
  rw [String.toList_append]
  exact List.forall_mem_append.mpr ⟨front, back⟩

/-- A break completes the current line. -/
theorem linesFrom_break (current : List Char) (c : Char) (rest : List Char)
    (breaks : isLineBreak c = true) (alone : ∀ behind, c = '\r' → rest ≠ '\n' :: behind) :
    linesFrom current (c :: rest) = current.reverse :: linesFrom [] rest := by
  rw [linesFrom, if_pos breaks]
  exact alone

/-- Any other character belongs to the current line. -/
theorem linesFrom_within (current : List Char) (c : Char) (rest : List Char)
    (within : isLineBreak c = false) :
    linesFrom current (c :: rest) = linesFrom (c :: current) rest := by
  rw [linesFrom, within, if_neg Bool.false_ne_true]
  rintro behind rfl
  cases within

/-- A carriage return is joined to what is put behind a text only at the end of the text. -/
theorem not_joined {c : Char} {before : List Char} (others : List Char)
    (alone : ∀ behind, c = '\r' → before ≠ '\n' :: behind)
    (apart : c = '\r' → before = [] → ∀ behind, others ≠ '\n' :: behind) :
    ∀ behind, c = '\r' → before ++ others ≠ '\n' :: behind := by
  rintro behind rfl joined
  cases before with
  | nil => exact apart rfl rfl behind joined
  | cons d more => exact alone more rfl (by rw [(List.cons.inj joined).1])

/-- Behind a line feed the lines begin anew. -/
theorem linesFrom_feed (current before rest : List Char) :
    linesFrom current (before ++ '\n' :: rest) =
      linesFrom current (before ++ ['\n']) ++ linesFrom [] rest := by
  induction current, before using linesFrom.induct with
  | case1 current | case2 current => rfl
  | case3 current before ih =>
    simp only [List.cons_append, linesFrom]
    exact congrArg (current.reverse :: ·) ih
  | case4 current c before alone breaks ih =>
    by_cases joined : c = '\r' ∧ before = []
    · -- The line feed and the carriage return in front of it are one break.
      obtain ⟨rfl, rfl⟩ := joined
      rfl
    · have apart := fun others => not_joined ('\n' :: others) alone
        fun return' last => absurd ⟨return', last⟩ joined
      rw [List.cons_append, List.cons_append, linesFrom_break _ _ _ breaks (apart rest),
        linesFrom_break _ _ _ breaks (apart []), ih]
      rfl
  | case5 current c before alone breaks ih =>
    have within : isLineBreak c = false := by simpa using breaks
    rw [List.cons_append, List.cons_append, linesFrom_within _ _ _ within,
      linesFrom_within _ _ _ within, ih]

/-- A piece without line breaks belongs to the current line. -/
theorem linesFrom_piece (current piece rest : List Char)
    (unbroken : ∀ c ∈ piece, isLineBreak c = false) :
    linesFrom current (piece ++ rest) = linesFrom (piece.reverse ++ current) rest := by
  induction piece generalizing current with
  | nil => rfl
  | cons c piece ih =>
    rw [List.forall_mem_cons] at unbroken
    rw [List.cons_append, linesFrom_within _ _ _ unbroken.1, ih _ unbroken.2, List.reverse_cons,
      List.append_assoc]
    rfl

/-- The line that has begun goes on as the text does, whatever it began with. -/
theorem linesFrom_begun (rest : List Char) :
    ∃ onward later, ∀ current, current ≠ [] →
      linesFrom current rest = (current.reverse ++ onward) :: later := by
  induction rest with
  | nil =>
    refine ⟨[], [], fun current begun => ?_⟩
    cases current with
    | nil => exact absurd rfl begun
    | cons c current => simp [linesFrom]
  | cons c rest ih =>
    cases breaks : isLineBreak c with
    | false =>
      obtain ⟨onward, later, same⟩ := ih
      refine ⟨c :: onward, later, fun current begun => ?_⟩
      rw [linesFrom_within _ _ _ breaks, same _ (List.cons_ne_nil c current)]
      simp
    | true =>
      by_cases joined : ∃ behind, c = '\r' ∧ rest = '\n' :: behind
      · obtain ⟨behind, rfl, rfl⟩ := joined
        exact ⟨[], linesFrom [] behind, fun current _ => by simp [linesFrom]⟩
      · refine ⟨[], linesFrom [] rest, fun current _ => ?_⟩
        rw [linesFrom_break _ _ _ breaks fun behind return' same => joined ⟨behind, return', same⟩,
          List.append_nil]

/-- A piece without line breaks stands within one line of a text. -/
theorem linesFrom_around (current before after : List Char) :
    ∃ earlier front back later, ∀ piece, piece ≠ [] → (∀ c ∈ piece, isLineBreak c = false) →
      linesFrom current (before ++ (piece ++ after)) =
        earlier ++ (front ++ (piece ++ back)) :: later := by
  -- The lines in front are complete before the piece begins, and their breaks take nothing of it.
  induction current, before using linesFrom.induct with
  | case1 current | case2 current =>
    obtain ⟨onward, later, same⟩ := linesFrom_begun after
    refine ⟨[], current.reverse, onward, later, fun piece given unbroken => ?_⟩
    rw [List.nil_append, linesFrom_piece _ _ _ unbroken, same _ (by simp [given])]
    simp
  | case3 current before ih =>
    obtain ⟨earlier, front, back, later, same⟩ := ih
    refine ⟨current.reverse :: earlier, front, back, later, fun piece given unbroken => ?_⟩
    rw [List.cons_append, List.cons_append, linesFrom, same piece given unbroken]
    rfl
  | case4 current c before alone breaks ih =>
    obtain ⟨earlier, front, back, later, same⟩ := ih
    refine ⟨current.reverse :: earlier, front, back, later, fun piece given unbroken => ?_⟩
    have apart : ∀ behind, piece ++ after ≠ '\n' :: behind := by
      intro behind joined
      obtain ⟨d, piece, rfl⟩ := List.exists_cons_of_ne_nil given
      have feed : d = '\n' := (List.cons.inj joined).1
      subst feed
      exact absurd (unbroken _ List.mem_cons_self) (by decide)
    rw [List.cons_append, linesFrom_break _ _ _ breaks (not_joined _ alone fun _ _ => apart),
      same piece given unbroken]
    rfl
  | case5 current c before alone breaks ih =>
    obtain ⟨earlier, front, back, later, same⟩ := ih
    refine ⟨earlier, front, back, later, fun piece given unbroken => ?_⟩
    rw [List.cons_append, linesFrom_within _ _ _ (by simpa using breaks), same piece given unbroken]

/-! ## Whole lines -/

/-- Whether a text is nothing, or its last line is ended by a line feed. -/
def IsWhole (s : String) : Prop := ∀ c ∈ s.toList.getLast?, c = '\n'

theorem isWhole_empty : IsWhole "" := by
  intro c last
  cases last

theorem isWhole_of_ends (s : String) (ends : s.toList.getLast? = some '\n') : IsWhole s := by
  intro c last
  rw [ends] at last
  exact (Option.some.inj last).symm

theorem isWhole_append (s t : String) (ends : t.toList.getLast? = some '\n') :
    IsWhole (s ++ t) := by
  refine isWhole_of_ends _ ?_
  rw [String.toList_append, List.getLast?_append, ends]
  rfl

theorem isWhole_feed (s : String) : IsWhole (s ++ "\n") := isWhole_append s "\n" rfl

theorem IsWhole.append {s t : String} (whole : IsWhole s) (whole' : IsWhole t) :
    IsWhole (s ++ t) := by
  intro c last
  rw [String.toList_append, List.getLast?_append] at last
  cases behind : t.toList.getLast? with
  | none => exact whole c (by simpa [behind] using last)
  | some d => exact whole' c (by simpa [behind] using last)

/-- The lines behind whole lines are lines of their own. -/
theorem IsWhole.lines_append {s : String} (whole : IsWhole s) (t : String) :
    lines (s ++ t) = lines s ++ lines t := by
  rw [lines, lines, lines, ← List.map_append, String.toList_append]
  rcases List.eq_nil_or_concat s.toList with empty | ⟨front, c, ended⟩
  · rw [empty]
    rfl
  · have feed : c = '\n' := whole c (by simp [ended])
    subst feed
    rw [ended, List.concat_eq_append, List.append_assoc]
    exact congrArg _ (linesFrom_feed [] front t.toList)

theorem lines_feed (s : String) (unbroken : ∀ c ∈ s.toList, isLineBreak c = false) :
    lines (s ++ "\n") = [s] := by
  rw [lines, String.toList_append, linesFrom_piece _ _ _ unbroken]
  simp [linesFrom, isLineBreak]

/-- A piece without line breaks stands within one line, and the other lines do not depend on it. -/
theorem lines_around (before after : String) :
    ∃ earlier front back later, ∀ piece : String, piece ≠ "" →
      (∀ c ∈ piece.toList, isLineBreak c = false) →
      lines (before ++ (piece ++ after)) = earlier ++ (front ++ (piece ++ back)) :: later := by
  obtain ⟨earlier, front, back, later, same⟩ := linesFrom_around [] before.toList after.toList
  refine ⟨earlier.map String.ofList, String.ofList front, String.ofList back,
    later.map String.ofList, fun piece given unbroken => ?_⟩
  have something : piece.toList ≠ [] := fun empty => given (String.toList_inj.mp empty)
  rw [lines, String.toList_append, String.toList_append, same _ something unbroken]
  simp [String.ofList_append]

end GraphQLModels.Text
