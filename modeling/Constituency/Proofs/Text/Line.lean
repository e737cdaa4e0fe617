import Constituency.Text.Basic
import Mathlib.Data.List.Infix

/-!
# Splitting text into lines

No line of a text has a line feed in it.  Lines without line feeds, none of which
ends in a carriage return, are found again in the text in which each is ended by a
line feed, and if none of them is empty, also in the text in which line feeds
stand between them.

How a text consists of lines can also be said without splitting it: every line but
the last is ended by a line feed, or by a carriage return and a line feed.  There
is just one way in which a text consists of lines.  If the last line of a text is
ended too, the lines of what follows the text come after its own.
-/

namespace Constituency.Text

/-- A line that a line feed after it ends just there. -/
structure Plain (line : List Char) : Prop where
  no_lineFeed : '\n' ∉ line
  no_return : line.getLast? ≠ some '\r'

/-- The text consists of the lines with their ends.  The last line may have no end,
and is not empty then. -/
inductive Comprises : List Char → List (List Char) → Prop
  | nil : Comprises [] []
  | last {line : List Char} (nonempty : line ≠ []) (noFeed : '\n' ∉ line) :
      Comprises line [line]
  /-- The line is ended by a line feed that no carriage return comes before. -/
  | feed {line rest : List Char} {others : List (List Char)}
      (plain : Plain line) (following : Comprises rest others) :
      Comprises (line ++ '\n' :: rest) (line :: others)
  /-- The line is ended by a carriage return and a line feed. -/
  | returnFeed {line rest : List Char} {others : List (List Char)}
      (noFeed : '\n' ∉ line) (following : Comprises rest others) :
      Comprises (line ++ '\r' :: '\n' :: rest) (line :: others)

variable {line rest : List Char} {written : List (List Char)}

theorem plain_nil : Plain [] :=
  ⟨by simp, by simp⟩

theorem no_lineFeed_of_mem_lines {text : List Char} :
    ∀ line ∈ lines text, '\n' ∉ line := by
  fun_induction lines text with
  | case1 => simp
  | case2 rest ih => simpa using ih
  | case3 rest ih => simpa using ih
  | case4 c rest notFeed notReturn empty ih =>
      simpa using fun same => notFeed same.symm
  | case5 c rest notFeed notReturn line others found ih =>
      rw [found] at ih
      obtain ⟨firstPlain, othersPlain⟩ := List.forall_mem_cons.mp ih
      refine List.forall_mem_cons.mpr ⟨?_, othersPlain⟩
      simpa [firstPlain] using fun same => notFeed same.symm

theorem lines_cons {c : Char} (notFeed : c ≠ '\n')
    (notReturn : c = '\r' → rest.head? ≠ some '\n') :
    lines (c :: rest) =
      match lines rest with
      | [] => [[c]]
      | line :: others => (c :: line) :: others := by
  have notEnd : ∀ after, c = '\r' → rest = '\n' :: after → False := by
    rintro after isReturn rfl
    exact notReturn isReturn rfl
  exact lines.eq_4 c rest notFeed notEnd

theorem lines_of_no_lineFeed (nonempty : line ≠ [])
    (noFeed : '\n' ∉ line) : lines line = [line] := by
  induction line with
  | nil => exact absurd rfl nonempty
  | cons c tail ih =>
      obtain ⟨notFeed, tailPlain⟩ := List.ne_and_not_mem_of_not_mem_cons noFeed
      rw [lines_cons (Ne.symm notFeed)]
      · cases tail with
        | nil => rfl
        | cons d tail => rw [ih (by simp) tailPlain]
      · intro _ head
        exact tailPlain (List.mem_of_mem_head? head)

theorem lines_append (plain : Plain line) (rest : List Char) :
    lines (line ++ '\n' :: rest) = line :: lines rest := by
  obtain ⟨noFeed, noReturn⟩ := plain
  induction line with
  | nil => rfl
  | cons c tail ih =>
      obtain ⟨notFeed, tailPlain⟩ := List.ne_and_not_mem_of_not_mem_cons noFeed
      rw [List.cons_append, lines_cons (Ne.symm notFeed)]
      · cases tail with
        | nil => rfl
        | cons d tail => rw [ih tailPlain (by simpa using noReturn)]
      · -- The line feed that ends the line comes right after its last character.
        rintro rfl head
        cases tail with
        | nil => simp at noReturn
        | cons d tail => simp_all

theorem lines_append_return (noFeed : '\n' ∉ line) (rest : List Char) :
    lines (line ++ '\r' :: '\n' :: rest) = line :: lines rest := by
  induction line with
  | nil => rfl
  | cons c tail ih =>
      obtain ⟨notFeed, tailPlain⟩ := List.ne_and_not_mem_of_not_mem_cons noFeed
      rw [List.cons_append, lines_cons (Ne.symm notFeed), ih tailPlain]
      intro _ head
      cases tail with
      | nil => simp at head
      | cons d tail => simp_all

/-- A character that ends no line makes the first line longer. -/
theorem Comprises.cons {c : Char} {text : List Char}
    {others : List (List Char)} (notFeed : c ≠ '\n')
    (notReturn : c = '\r' → text.head? ≠ some '\n')
    (comprises : Comprises text (line :: others)) :
    Comprises (c :: text) ((c :: line) :: others) := by
  cases comprises with
  | last nonempty noFeed =>
      have longer : '\n' ∉ c :: line := by simp [noFeed, Ne.symm notFeed]
      exact .last (List.cons_ne_nil _ _) longer
  | feed plain following =>
      have noReturn : (c :: line).getLast? ≠ some '\r' := by
        cases line with
        | nil =>
            intro last
            obtain rfl : c = '\r' := by simpa using last
            exact notReturn rfl rfl
        | cons d tail => simpa using plain.no_return
      have longer : Plain (c :: line) :=
        ⟨by simp [plain.no_lineFeed, Ne.symm notFeed], noReturn⟩
      exact .feed longer following
  | returnFeed noFeed following =>
      have longer : '\n' ∉ c :: line := by simp [noFeed, Ne.symm notFeed]
      exact .returnFeed longer following

theorem comprises_lines (text : List Char) : Comprises text (lines text) := by
  fun_induction lines text with
  | case1 => exact .nil
  | case2 rest ih => exact .feed plain_nil ih
  | case3 rest ih => exact .returnFeed List.not_mem_nil ih
  | case4 c rest notFeed notReturn empty ih =>
      rw [empty] at ih
      cases ih
      exact .last (by simp) (by simpa using fun same => notFeed same.symm)
  | case5 c rest notFeed notReturn line others found ih =>
      rw [found] at ih
      refine ih.cons notFeed ?_
      rintro rfl head
      cases rest with
      | nil => simp at head
      | cons d rest =>
          obtain rfl : d = '\n' := by simpa using head
          exact notReturn rest rfl rfl

/-- There is just one way in which a text consists of lines. -/
theorem comprises_iff_eq_lines {text : List Char} :
    Comprises text written ↔ written = lines text := by
  constructor
  · intro comprises
    induction comprises with
    | nil => rfl
    | last nonempty noFeed => exact (lines_of_no_lineFeed nonempty noFeed).symm
    | feed plain _ ih => rw [lines_append plain, ih]
    | returnFeed noFeed _ ih => rw [lines_append_return noFeed, ih]
  · rintro rfl
    exact comprises_lines text

theorem Comprises.mem {text : List Char} {c : Char}
    (comprises : Comprises text written) (lineMember : line ∈ written)
    (member : c ∈ line) : c ∈ text := by
  induction comprises with
  | nil => simp at lineMember
  | last => simpa [List.mem_singleton.mp lineMember] using member
  | feed _ _ ih =>
      rcases List.mem_cons.mp lineMember with rfl | lineMember
      · simp [member]
      · simp [ih lineMember]
  | returnFeed _ _ ih =>
      rcases List.mem_cons.mp lineMember with rfl | lineMember
      · simp [member]
      · simp [ih lineMember]

theorem mem_of_mem_lines {text : List Char} {c : Char}
    (lineMember : line ∈ lines text) (member : c ∈ line) : c ∈ text :=
  (comprises_lines text).mem lineMember member

theorem lines_ne_nil {text : List Char} (nonempty : text ≠ []) :
    lines text ≠ [] := by
  intro empty
  have comprises := comprises_lines text
  rw [empty] at comprises
  cases comprises
  exact nonempty rfl

/-- The last line of the text, if it has one, is ended by a line feed. -/
def Ended (text : List Char) : Prop :=
  text = [] ∨ text.getLast? = some '\n'

instance (text : List Char) : Decidable (Ended text) :=
  inferInstanceAs (Decidable (_ ∨ _))

theorem Ended.of_append (before : List Char) {after : List Char}
    (ended : Ended (before ++ after)) : Ended after := by
  rcases eq_or_ne after [] with rfl | nonempty
  · exact .inl rfl
  · rcases ended with empty | last
    · exact absurd (List.append_eq_nil_iff.mp empty).2 nonempty
    · rw [List.getLast?_append_of_ne_nil before nonempty] at last
      exact .inr last

/-- Two texts consist of the lines of both if the first of them is ended. -/
theorem Comprises.append {text following : List Char}
    {others : List (List Char)} (comprises : Comprises text written)
    (ended : Ended text) (comprises' : Comprises following others) :
    Comprises (text ++ following) (written ++ others) := by
  induction comprises with
  | nil => exact comprises'
  | last nonempty noFeed =>
      rcases ended with empty | last
      · exact absurd empty nonempty
      · exact absurd (List.mem_of_getLast? last) noFeed
  | @feed line rest others plain _ ih =>
      have restEnded : Ended rest :=
        .of_append (line ++ ['\n']) (by simpa using ended)
      rw [List.append_assoc, List.cons_append, List.cons_append]
      exact .feed plain (ih restEnded)
  | @returnFeed line rest others noFeed _ ih =>
      have restEnded : Ended rest :=
        .of_append (line ++ ['\r', '\n']) (by simpa using ended)
      rw [List.append_assoc, List.cons_append, List.cons_append,
        List.cons_append]
      exact .returnFeed noFeed (ih restEnded)

theorem lines_append_of_ended {text : List Char} (ended : Ended text)
    (following : List Char) :
    lines (text ++ following) = lines text ++ lines following :=
  (comprises_iff_eq_lines.mp
    ((comprises_lines text).append ended (comprises_lines following))).symm

theorem length_lines_eq_one_iff {text : List Char} (nonempty : text ≠ [])
    (notEnded : text.getLast? ≠ some '\n') :
    (lines text).length = 1 ↔ '\n' ∉ text := by
  constructor
  · intro length
    have comprises := comprises_lines text
    obtain ⟨line, linesEq⟩ := List.length_eq_one_iff.mp length
    rw [linesEq] at comprises
    cases comprises with
    | last _ noFeed => exact noFeed
    | feed _ following => cases following; simp at notEnded
    | returnFeed _ following => cases following; simp at notEnded
  · intro noFeed
    rw [lines_of_no_lineFeed nonempty noFeed, List.length_singleton]

/-- A text without carriage returns that no line feed ends is found again if a
line feed is put before each of its lines. -/
theorem flatMap_cons_lines {text : List Char} (nonempty : text ≠ [])
    (notEnded : text.getLast? ≠ some '\n') (noReturn : '\r' ∉ text) :
    (lines text).flatMap ('\n' :: ·) = '\n' :: text := by
  have comprises := comprises_lines text
  generalize lines text = written at comprises ⊢
  induction comprises with
  | nil => exact absurd rfl nonempty
  | last => simp
  | @feed line rest others _ _ ih =>
      rcases eq_or_ne rest [] with rfl | restNonempty
      · simp at notEnded
      · rw [List.getLast?_append_of_ne_nil _ (List.cons_ne_nil _ _),
          List.getLast?_cons_of_ne_nil restNonempty] at notEnded
        rw [List.flatMap_cons,
          ih restNonempty notEnded fun member => noReturn (by simp [member])]
        simp
  | returnFeed => simp at noReturn

theorem lines_flatMap (plain : ∀ line ∈ written, Plain line) :
    lines (written.flatMap fun line => line ++ ['\n']) = written := by
  induction written with
  | nil => rfl
  | cons line others ih =>
      obtain ⟨linePlain, othersPlain⟩ := List.forall_mem_cons.mp plain
      rw [List.flatMap_cons, List.append_assoc, List.singleton_append,
        lines_append linePlain, ih othersPlain]

theorem lines_intercalate (plain : ∀ line ∈ written, Plain line)
    (nonempty : ∀ line ∈ written, line ≠ []) :
    lines (['\n'].intercalate written) = written := by
  induction written with
  | nil => rfl
  | cons line others ih =>
      obtain ⟨linePlain, othersPlain⟩ := List.forall_mem_cons.mp plain
      obtain ⟨lineNonempty, othersNonempty⟩ := List.forall_mem_cons.mp nonempty
      cases others with
      | nil =>
          rw [List.intercalate_singleton,
            lines_of_no_lineFeed lineNonempty linePlain.no_lineFeed]
      | cons next others =>
          rw [List.intercalate_cons_cons, List.append_assoc,
            List.singleton_append, lines_append linePlain,
            ih othersPlain othersNonempty]

end Constituency.Text
