import Constituency.ParseTree.Basic

/-!
# The words and the order of spans

A span has the words of a sentence from its start up to its stop.  Spans are
ordered by their lengths, and those of one length from left to right.
-/

namespace Constituency

namespace Span

/-- Every word of the span belongs to the other span. -/
def Within (span other : Span) : Prop :=
  other.start ≤ span.start ∧ span.stop ≤ other.stop

/-- The span is shorter, or as long and further to the left. -/
def Before (span other : Span) : Prop :=
  span.length < other.length ∨
    span.length = other.length ∧ span.start < other.start

/-- The span is shorter, or as long and not further to the right. -/
def NotAfter (span other : Span) : Prop :=
  span.length < other.length ∨
    span.length = other.length ∧ span.start ≤ other.start

theorem NotAfter.refl (span : Span) : span.NotAfter span :=
  .inr ⟨rfl, Nat.le_refl _⟩

theorem Before.notAfter {span other : Span} (before : span.Before other) :
    span.NotAfter other :=
  before.imp_right fun ⟨sameLength, lower⟩ => ⟨sameLength, Nat.le_of_lt lower⟩

theorem Before.ne {span other : Span} (before : span.Before other) :
    span ≠ other := by
  rintro rfl
  rcases before with shorter | ⟨_, lower⟩
  · exact Nat.lt_irrefl _ shorter
  · exact Nat.lt_irrefl _ lower

theorem Before.not_within {span other : Span} (before : span.Before other)
    (proper : other.start < other.stop) : ¬ other.Within span := by
  rintro ⟨startLe, stopLe⟩
  simp only [Before, length] at before
  omega

/-- Every word of the span stands before every word of the other span. -/
def LeftOf (span other : Span) : Prop :=
  span.stop ≤ other.start

/-- The parts have words, lie side by side from left to right and fill the
span. -/
inductive Tiles : Span → List Span → Prop
  | nil (place : Nat) : Tiles ⟨place, place⟩ []
  | cons {start middle stop : Nat} {rest : List Span} (proper : start < middle)
      (others : Tiles ⟨middle, stop⟩ rest) :
      Tiles ⟨start, stop⟩ (⟨start, middle⟩ :: rest)

namespace Tiles

variable {span : Span} {parts : List Span}

theorem ordered (tiles : Tiles span parts) : span.start ≤ span.stop := by
  induction tiles with
  | nil => exact Nat.le_refl _
  | cons proper _ ih => exact Nat.le_trans (Nat.le_of_lt proper) ih

theorem within (tiles : Tiles span parts) :
    ∀ part ∈ parts, part.Within span := by
  induction tiles with
  | nil => simp
  | cons proper others ih =>
      have room := others.ordered
      rw [List.forall_mem_cons]
      refine ⟨⟨Nat.le_refl _, room⟩, fun part member => ?_⟩
      obtain ⟨startLe, stopLe⟩ := ih part member
      exact ⟨Nat.le_trans (Nat.le_of_lt proper) startLe, stopLe⟩

theorem pairwise_leftOf (tiles : Tiles span parts) : parts.Pairwise LeftOf := by
  induction tiles with
  | nil => exact .nil
  | cons proper others ih =>
      exact .cons (fun part member => (others.within part member).1) ih

end Tiles

/-- The words of a sentence that belong to the span. -/
def slice (span : Span) (words : List String) : List String :=
  (words.drop span.start).take span.length

variable {words : List String} {start middle stop : Nat}

@[simp]
theorem slice_self (place : Nat) (words : List String) :
    slice ⟨place, place⟩ words = [] := by
  simp [slice, length]

theorem slice_whole (words : List String) :
    slice ⟨0, words.length⟩ words = words := by
  simp [slice, length]

theorem slice_append (words : List String) (ordered : start ≤ middle)
    (ordered' : middle ≤ stop) :
    slice ⟨start, middle⟩ words ++ slice ⟨middle, stop⟩ words =
      slice ⟨start, stop⟩ words := by
  have rest : words.drop middle = (words.drop start).drop (middle - start) := by
    rw [List.drop_drop]
    congr 1
    omega
  have lengths : stop - start = (middle - start) + (stop - middle) := by omega
  simp only [slice, length, rest, lengths, List.take_add]

theorem length_slice {span : Span} (within : span.stop ≤ words.length) :
    (span.slice words).length = span.length := by
  rw [slice, List.length_take, List.length_drop]
  simp only [length]
  omega

theorem slice_of_getElem? {word : String} (placed : words[start]? = some word) :
    slice ⟨start, start + 1⟩ words = [word] := by
  obtain ⟨within, rfl⟩ := List.getElem?_eq_some_iff.mp placed
  simp [slice, length, List.take_one, within]

theorem of_slice_eq_singleton {span : Span} {word : String}
    (within : span.stop ≤ words.length) (single : span.slice words = [word]) :
    span.stop = span.start + 1 ∧ words[span.start]? = some word := by
  obtain ⟨start, stop⟩ := span
  have lengthEq := length_slice within
  rw [single, List.length_singleton] at lengthEq
  simp only [length] at lengthEq
  obtain rfl : stop = start + 1 := by omega
  have placed : words[start]? = some words[start] :=
    List.getElem?_eq_getElem (Nat.lt_of_succ_le within)
  rw [slice_of_getElem? placed, List.cons.injEq] at single
  exact ⟨rfl, single.1 ▸ placed⟩

theorem slice_eq_append_iff {first second : List String}
    (ordered : start ≤ stop) (within : stop ≤ words.length) :
    slice ⟨start, stop⟩ words = first ++ second ↔
      start + first.length ≤ stop ∧
      slice ⟨start, start + first.length⟩ words = first ∧
      slice ⟨start + first.length, stop⟩ words = second := by
  constructor
  · intro whole
    have lengths := congrArg List.length whole
    rw [length_slice within, List.length_append] at lengths
    simp only [length] at lengths
    have middleLe : start + first.length ≤ stop := by omega
    rw [← slice_append words (Nat.le_add_right start first.length) middleLe]
      at whole
    have firstLength : (slice ⟨start, start + first.length⟩ words).length =
        first.length := by
      rw [length_slice (by dsimp only; omega)]
      simp [length]
    exact ⟨middleLe, List.append_inj whole firstLength⟩
  · rintro ⟨middleLe, firstEq, secondEq⟩
    rw [← slice_append words (Nat.le_add_right start first.length) middleLe,
      firstEq, secondEq]

end Span

end Constituency
