import Constituency.Grammar.Source
import Constituency.Proofs.Rule.Form
import Mathlib.Data.List.Forall2

/-!
# The lines of a grammar that is read

The lines of a text are cut where a comment begins.  Each of them must then be
blank or a rule.  If all are, the productions of the rules are read, in the order
of the lines and of the alternatives; otherwise the first line that is neither is
named by its number.
-/

namespace Constituency

namespace Rule

/-- What is left of a line that is cut at the first two slashes in it. -/
inductive WithoutComment : List Char → List Char → Prop
  | whole {line : List Char} (noSlashes : ¬ ['/', '/'] <:+: line) :
      WithoutComment line line
  /-- The slashes are the first ones, as none stand together before the second. -/
  | cut {before after : List Char}
      (first : ¬ ['/', '/'] <:+: before ++ ['/']) :
      WithoutComment (before ++ '/' :: '/' :: after) before

def CutLines (text : List Char) (cut : List (List Char)) : Prop :=
  ∃ lines, Text.Comprises text lines ∧ List.Forall₂ WithoutComment lines cut

def BlankLine (line : List Char) : Prop :=
  ∀ c ∈ line, Text.isBlank c = true

/-- The productions that a line stands for. -/
inductive LineReads : List Char → List Production → Prop
  | blank {line : List Char} (blank : BlankLine line) : LineReads line []
  | rule {line : List Char} {rule : Rule} (spells : Spells line rule) :
      LineReads line rule.productions

/-- A line is blank or a rule. -/
def WellFormedLine (line : List Char) : Prop :=
  BlankLine line ∨ ∃ rule, Spells line rule

/-- The line of this number, counted from one, is the first that is neither blank
nor a rule. -/
def FirstMalformed (cut : List (List Char)) (number : Nat) : Prop :=
  ∃ before line after, cut = before ++ line :: after ∧
    number = before.length + 1 ∧ (∀ earlier ∈ before, WellFormedLine earlier) ∧
    ¬ WellFormedLine line

variable {line before text : List Char} {lines cut : List (List Char)}
variable {parts : List (List Production)} {part : List Production}
variable {productions : List Production} {rule : Rule} {number : Nat}

section Comments

theorem dropComment_cut (after : List Char)
    (first : ¬ ['/', '/'] <:+: before ++ ['/']) :
    dropComment (before ++ '/' :: '/' :: after) = before := by
  induction before with
  | nil => rfl
  | cons c before ih =>
      have tailFirst : ¬ ['/', '/'] <:+: before ++ ['/'] := fun within =>
        first (within.trans (List.suffix_cons c _).isInfix)
      rw [List.cons_append, dropComment_cons, ih tailFirst]
      rintro rfl head
      apply first
      cases before with
      | nil => exact ⟨[], [], rfl⟩
      | cons d before =>
          obtain rfl : d = '/' := by simpa using head
          exact ⟨[], before ++ ['/'], rfl⟩

theorem WithoutComment.cons {c : Char} {rest left : List Char}
    (notComment : c = '/' → rest.head? ≠ some '/')
    (without : WithoutComment rest left) :
    WithoutComment (c :: rest) (c :: left) := by
  -- Two slashes could only stand together at the front.
  have longer : ∀ {text : List Char}, ¬ ['/', '/'] <:+: text →
      text.head? = rest.head? → ¬ ['/', '/'] <:+: c :: text := by
    intro text noSlashes sameHead within
    rcases List.infix_cons_iff.mp within with ⟨after, split⟩ | inner
    · obtain ⟨rfl, rfl⟩ := List.cons.inj split
      exact notComment rfl sameHead.symm
    · exact noSlashes inner
  cases without with
  | whole noSlashes => exact .whole (longer noSlashes rfl)
  | cut first =>
      rw [← List.cons_append]
      refine .cut ?_
      rw [List.cons_append]
      refine longer first ?_
      cases left <;> rfl

theorem withoutComment_dropComment (line : List Char) :
    WithoutComment line (dropComment line) := by
  fun_induction dropComment line with
  | case1 => exact .whole (by simp)
  | case2 after =>
      have first : ¬ ['/', '/'] <:+: ([] : List Char) ++ ['/'] := by decide
      exact .cut first
  | case3 c rest notComment ih =>
      refine ih.cons ?_
      rintro rfl head
      cases rest with
      | nil => simp at head
      | cons d rest =>
          obtain rfl : d = '/' := by simpa using head
          exact notComment rest rfl rfl

theorem withoutComment_iff :
    WithoutComment line text ↔ dropComment line = text := by
  constructor
  · rintro (noSlashes | first)
    · exact dropComment_eq_self_iff.mpr noSlashes
    · exact dropComment_cut _ first
  · rintro rfl
    exact withoutComment_dropComment line

theorem cutLines_iff :
    CutLines text cut ↔ cut = (Text.lines text).map dropComment := by
  have same : WithoutComment = fun line left => dropComment line = left := by
    funext line left
    exact propext withoutComment_iff
  rw [CutLines, same]
  simp only [Text.comprises_iff_eq_lines, exists_eq_left]
  rw [← List.forall₂_map_left_iff, List.forall₂_eq_eq_eq, eq_comm]

end Comments

section Lines

theorem Spells.not_blankLine (spells : Spells line rule) :
    ¬ BlankLine line := by
  intro blank
  have arrow : '>' ∈ line := by
    obtain ⟨indented, whole, spaced, alternatives⟩ := spells
    simp
  exact absurd (blank '>' arrow) (by decide)

theorem wellFormedLine_iff :
    WellFormedLine line ↔ ∃ part, LineReads line part := by
  constructor
  · rintro (blank | ⟨rule, spells⟩)
    · exact ⟨[], .blank blank⟩
    · exact ⟨rule.productions, .rule spells⟩
  · rintro ⟨part, blank | spells⟩
    · exact .inl blank
    · exact .inr ⟨_, spells⟩

theorem readLinesFrom_cons (reads : LineReads (dropComment line) part)
    (number : Nat) :
    readLinesFrom number (line :: lines) =
      (readLinesFrom (number + 1) lines).map (part ++ ·) := by
  rw [readLinesFrom]
  cases reads with
  | blank blank =>
      rw [if_pos (List.all_eq_true.mpr blank)]
      cases readLinesFrom (number + 1) lines <;> rfl
  | rule spells =>
      have notBlank := spells.not_blankLine
      rw [BlankLine, ← List.all_eq_true] at notBlank
      rw [if_neg notBlank, read_eq_ok_iff.mpr spells]

theorem exists_readLinesFrom_eq_error
    (malformed : ¬ WellFormedLine (dropComment line)) (number : Nat) :
    ∃ fault, readLinesFrom number (line :: lines) =
      .error (.malformedRule number fault) := by
  obtain ⟨notBlank, noRule⟩ := not_or.mp malformed
  rw [BlankLine, ← List.all_eq_true] at notBlank
  rw [readLinesFrom, if_neg notBlank]
  cases found : read (dropComment line) with
  | error fault => exact ⟨fault, rfl⟩
  | ok rule => exact absurd ⟨rule, read_eq_ok_iff.mp found⟩ noRule

theorem readLinesFrom_of_reads
    (reads : List.Forall₂ LineReads (lines.map dropComment) parts)
    (number : Nat) : readLinesFrom number lines = .ok parts.flatten := by
  induction lines generalizing parts number with
  | nil =>
      obtain rfl := List.forall₂_nil_left_iff.mp reads
      rfl
  | cons line lines ih =>
      obtain ⟨part, others, first, following, rfl⟩ :=
        List.forall₂_cons_left_iff.mp reads
      rw [readLinesFrom_cons first, ih following]
      rfl

/-- The lines before the first one that cannot be read are passed over. -/
theorem exists_eq_error_of_append {before after : List (List Char)}
    {bad : List Char} (split : lines.map dropComment = before ++ bad :: after)
    (wellFormed : ∀ earlier ∈ before, WellFormedLine earlier)
    (isBad : ¬ WellFormedLine bad) (number : Nat) :
    ∃ fault, readLinesFrom number lines =
      .error (.malformedRule (before.length + number) fault) := by
  induction before generalizing lines number with
  | nil =>
      obtain ⟨line, others, rfl, rfl, _⟩ := List.map_eq_cons_iff.mp split
      rw [List.length_nil, Nat.zero_add]
      exact exists_readLinesFrom_eq_error isBad number
  | cons earlier before ih =>
      obtain ⟨line, others, rfl, rfl, restSplit⟩ :=
        List.map_eq_cons_iff.mp split
      obtain ⟨first, othersWellFormed⟩ := List.forall_mem_cons.mp wellFormed
      obtain ⟨part, reads⟩ := wellFormedLine_iff.mp first
      obtain ⟨fault, failed⟩ := ih restSplit othersWellFormed (number + 1)
      refine ⟨fault, ?_⟩
      rw [readLinesFrom_cons reads, failed, List.length_cons, Nat.add_right_comm]
      rfl

theorem exists_eq_error_of_firstMalformed
    (malformed : FirstMalformed (lines.map dropComment) number) :
    ∃ fault, readLinesFrom 1 lines = .error (.malformedRule number fault) := by
  obtain ⟨before, bad, after, split, rfl, wellFormed, isBad⟩ := malformed
  exact exists_eq_error_of_append split wellFormed isBad 1

theorem exists_reads_iff :
    (∃ parts, List.Forall₂ LineReads cut parts) ↔
      ∀ line ∈ cut, WellFormedLine line := by
  induction cut with
  | nil => exact ⟨fun _ => by simp, fun _ => ⟨[], .nil⟩⟩
  | cons line cut ih =>
      rw [List.forall_mem_cons, ← ih, wellFormedLine_iff]
      constructor
      · rintro ⟨parts, reads⟩
        obtain ⟨part, others, first, following, _⟩ :=
          List.forall₂_cons_left_iff.mp reads
        exact ⟨⟨part, first⟩, others, following⟩
      · rintro ⟨⟨part, first⟩, parts, following⟩
        exact ⟨part :: parts, .cons first following⟩

theorem exists_reads_or_firstMalformed (cut : List (List Char)) :
    (∃ parts, List.Forall₂ LineReads cut parts) ∨
      ∃ number, FirstMalformed cut number := by
  induction cut with
  | nil => exact .inl ⟨[], .nil⟩
  | cons line cut ih =>
      by_cases wellFormed : WellFormedLine line
      · rcases ih with ⟨parts, reads⟩ |
          ⟨_, before, bad, after, rfl, rfl, earlier, isBad⟩
        · obtain ⟨part, first⟩ := wellFormedLine_iff.mp wellFormed
          exact .inl ⟨part :: parts, .cons first reads⟩
        · exact .inr ⟨_, line :: before, bad, after, rfl, rfl,
            List.forall_mem_cons.mpr ⟨wellFormed, earlier⟩, isBad⟩
      · exact .inr ⟨1, [], line, cut, rfl, rfl, by simp, wellFormed⟩

theorem readLinesFrom_eq_ok_iff :
    readLinesFrom 1 lines = .ok productions ↔
      ∃ parts, List.Forall₂ LineReads (lines.map dropComment) parts ∧
        productions = parts.flatten := by
  constructor
  · intro found
    rcases exists_reads_or_firstMalformed (lines.map dropComment) with
      ⟨parts, reads⟩ | ⟨place, malformed⟩
    · refine ⟨parts, reads, ?_⟩
      exact Except.ok.inj (found.symm.trans (readLinesFrom_of_reads reads 1))
    · obtain ⟨fault, failed⟩ := exists_eq_error_of_firstMalformed malformed
      cases found.symm.trans failed
  · rintro ⟨parts, reads, rfl⟩
    exact readLinesFrom_of_reads reads 1

theorem firstMalformed_of_eq_error {error : GrammarError}
    (failed : readLinesFrom 1 lines = .error error) :
    ∃ number fault, error = .malformedRule number fault ∧
      FirstMalformed (lines.map dropComment) number := by
  rcases exists_reads_or_firstMalformed (lines.map dropComment) with
    ⟨parts, reads⟩ | ⟨place, malformed⟩
  · cases failed.symm.trans (readLinesFrom_of_reads reads 1)
  · obtain ⟨fault, found⟩ := exists_eq_error_of_firstMalformed malformed
    exact ⟨place, fault, Except.error.inj (failed.symm.trans found), malformed⟩

end Lines

/-- A text is read just if each of its lines, cut at its comment, is blank or a
rule.  Otherwise the first line that is neither is named. -/
theorem readText_decides (text : String) :
    ∃ cut, (∀ other, CutLines text.toList other ↔ other = cut) ∧
      ((∃ productions, readText text = .ok productions) ↔
        ∀ line ∈ cut, WellFormedLine line) ∧
      (∀ productions, readText text = .ok productions ↔
        ∃ parts, List.Forall₂ LineReads cut parts ∧
          productions = parts.flatten) ∧
      (∀ number,
        (∃ fault, readText text = .error (.malformedRule number fault)) ↔
          FirstMalformed cut number) ∧
      ∀ error, readText text = .error error →
        ∃ number fault, error = .malformedRule number fault := by
  refine ⟨_, fun _ => cutLines_iff, ?_, fun _ => readLinesFrom_eq_ok_iff, ?_, ?_⟩
  · rw [← exists_reads_iff]
    constructor
    · rintro ⟨productions, found⟩
      obtain ⟨parts, reads, _⟩ := readLinesFrom_eq_ok_iff.mp found
      exact ⟨parts, reads⟩
    · rintro ⟨parts, reads⟩
      exact ⟨parts.flatten, readLinesFrom_of_reads reads 1⟩
  · intro number
    constructor
    · rintro ⟨fault, failed⟩
      obtain ⟨_, _, same, malformed⟩ := firstMalformed_of_eq_error failed
      obtain ⟨rfl, _⟩ := GrammarError.malformedRule.inj same
      exact malformed
    · exact exists_eq_error_of_firstMalformed
  · intro error failed
    obtain ⟨number, fault, same, _⟩ := firstMalformed_of_eq_error failed
    exact ⟨number, fault, same⟩

/-- A hyphen right after a name belongs to it, so an arrow needs a blank before it. -/
example : readText "S -> A\"x\"B|C // D\n\u00a0\r\nA-> B" =
    .error (.malformedRule 3 (.missingArrow "> B")) := by
  decide +kernel

end Rule

end Constituency
