import Constituency.Forest
import Mathlib.Algebra.BigOperators.Group.List.Basic
import Mathlib.Algebra.BigOperators.Ring.List
import Mathlib.Algebra.Order.BigOperators.GroupWithZero.List
import Mathlib.Algebra.Order.Ring.Nat
import Mathlib.Data.List.Forall2
import Mathlib.Data.List.GetD
import Mathlib.Data.List.Induction

/-!
# The selections from a list of choices

A list is among the tuples of choices if each of its elements is in the choice
at its place.  If the choices are ordered, the tuples are ordered by their first
difference.  The selections are the tuples, and the number of a selection tells
which element it takes of each choice: the digits of the number, written in the
mixed radix of the sizes of the choices, are the numbers of these elements.
-/

namespace Constituency

variable {α β : Type} {choices : List (List α)} {related : α → α → Prop}

/-- Every way to take one element of each choice, where taking nothing from no
choices counts as one way. -/
def tuples : List (List α) → List (List α)
  | [] => [[]]
  | choice :: rest =>
      let remaining := tuples rest
      choice.flatMap fun element => remaining.map (element :: ·)

theorem mem_tuples {elements : List α} :
    elements ∈ tuples choices ↔
      List.Forall₂ (fun element choice => element ∈ choice) elements choices := by
  induction choices generalizing elements with
  | nil => simp [tuples]
  | cons choice rest ih =>
      simp only [tuples, List.mem_flatMap, List.mem_map]
      constructor
      · rintro ⟨element, member, others, member', rfl⟩
        exact .cons member (ih.mp member')
      · intro sideBySide
        rcases sideBySide with _ | ⟨member, tails⟩
        exact ⟨_, member, _, ih.mpr tails, rfl⟩

theorem length_tuples (choices : List (List α)) :
    (tuples choices).length = (choices.map List.length).prod := by
  induction choices with
  | nil => rfl
  | cons choice rest ih => simp [tuples, List.length_flatMap, ih]

theorem map_tuples (change : α → β) (choices : List (List α)) :
    (tuples choices).map (List.map change) =
      tuples (choices.map (List.map change)) := by
  induction choices with
  | nil => rfl
  | cons choice rest ih =>
      simp only [tuples, List.map_cons, ← ih, List.map_flatMap, List.flatMap_map,
        List.map_map]
      rfl

theorem tuples_ne_nil (inhabited : ∀ choice ∈ choices, choice ≠ []) :
    tuples choices ≠ [] := by
  rw [← List.length_pos_iff, length_tuples]
  apply List.prod_pos
  intro size member
  obtain ⟨choice, among, rfl⟩ := List.mem_map.mp member
  exact List.length_pos_iff.mpr (inhabited choice among)

/-- At the first place where two lists differ, their elements are related. -/
def FirstDifference (related : α → α → Prop) (first second : List α) : Prop :=
  ∃ before left right firstRest secondRest,
    first = before ++ left :: firstRest ∧
    second = before ++ right :: secondRest ∧ related left right

theorem pairwise_tuples
    (ordered : ∀ choice ∈ choices, choice.Pairwise related) :
    (tuples choices).Pairwise (FirstDifference related) := by
  induction choices with
  | nil => exact List.pairwise_singleton ..
  | cons choice rest ih =>
      refine List.pairwise_flatMap.mpr ⟨fun element _ => ?_, ?_⟩
      · refine List.Pairwise.map _ ?_
          (ih fun choice member => ordered choice (by simp [member]))
        rintro _ _ ⟨before, left, right, firstRest, secondRest, rfl, rfl, lower⟩
        exact ⟨element :: before, left, right, firstRest, secondRest, rfl, rfl,
          lower⟩
      · apply (ordered choice (by simp)).imp
        rintro left right lower first member second member'
        obtain ⟨firstRest, _, rfl⟩ := List.mem_map.mp member
        obtain ⟨secondRest, _, rfl⟩ := List.mem_map.mp member'
        exact ⟨[], left, right, firstRest, secondRest, rfl, rfl, lower⟩

theorem nodup_tuples (distinct : ∀ choice ∈ choices, choice.Nodup) :
    (tuples choices).Nodup := by
  refine (pairwise_tuples distinct).imp ?_
  rintro _ _ ⟨before, left, right, firstRest, secondRest, rfl, rfl, different⟩ same
  exact different (List.cons.inj (List.append_cancel_left same)).1

theorem foldl_extendAll (choices sequences : List (List α)) :
    choices.foldl extendAll sequences = sequences.flatMap fun sequence =>
      (tuples choices).map (sequence ++ ·) := by
  induction choices generalizing sequences with
  | nil => simp [tuples]
  | cons choice rest ih =>
      rw [List.foldl_cons, ih, extendAll, List.flatMap_assoc]
      apply List.flatMap_congr
      intro sequence _
      simp only [tuples, List.flatMap_map, List.map_flatMap, List.map_map]
      apply List.flatMap_congr
      intro element _
      apply List.map_congr_left
      intro others _
      simp

theorem selections_eq_tuples (nonempty : choices ≠ []) :
    selections choices = tuples choices := by
  rw [selections, if_neg (by simpa using nonempty), foldl_extendAll]
  simp

section Places

variable {sizes : List Nat} {number place size : Nat}

/-- What a digit at a place counts for in the mixed radix of the sizes, with the
leftmost digit the most significant. -/
def placeValue (sizes : List Nat) (place : Nat) : Nat :=
  (sizes.drop (place + 1)).prod

/-- The digit of a number at a place in the mixed radix of the sizes. -/
def mixedDigit (sizes : List Nat) (place number : Nat) : Nat :=
  number / placeValue sizes place % sizes.getD place 1

theorem placeValue_concat_of_lt (before : place < sizes.length) :
    placeValue (sizes ++ [size]) place = size * placeValue sizes place := by
  rw [placeValue, placeValue, List.drop_append_of_le_length before,
    List.prod_append, List.prod_singleton, Nat.mul_comm]

theorem mixedDigit_concat_of_lt (before : place < sizes.length) :
    mixedDigit (sizes ++ [size]) place number =
      mixedDigit sizes place (number / size) := by
  rw [mixedDigit, mixedDigit, placeValue_concat_of_lt before,
    ← Nat.div_div_eq_div_mul, List.getD_append _ _ _ _ before]

theorem mixedDigit_concat_length (sizes : List Nat) (size number : Nat) :
    mixedDigit (sizes ++ [size]) sizes.length number = number % size := by
  simp [mixedDigit, placeValue]

/-- The digits denote the number. -/
theorem sum_mixedDigit (small : number < sizes.prod) :
    ((List.range sizes.length).map fun place =>
      mixedDigit sizes place number * placeValue sizes place).sum = number := by
  induction sizes using List.reverseRecOn generalizing number with
  | nil =>
      obtain rfl : number = 0 := by simpa using small
      rfl
  | append_singleton sizes size ih =>
      rw [List.prod_append, List.prod_singleton] at small
      have earlier : (List.range sizes.length).map (fun place =>
            mixedDigit (sizes ++ [size]) place number *
              placeValue (sizes ++ [size]) place) =
          (List.range sizes.length).map fun place =>
            size * (mixedDigit sizes place (number / size) *
              placeValue sizes place) := by
        apply List.map_congr_left
        intro place member
        have before := List.mem_range.mp member
        rw [mixedDigit_concat_of_lt before, placeValue_concat_of_lt before]
        exact Nat.mul_left_comm _ _ _
      have last : placeValue (sizes ++ [size]) sizes.length = 1 := by
        simp [placeValue]
      rw [List.length_append, List.length_singleton, List.range_succ,
        List.map_append, List.map_singleton, List.sum_append, List.sum_singleton,
        earlier, List.sum_map_mul_left,
        ih (Nat.div_lt_of_lt_mul (Nat.mul_comm sizes.prod size ▸ small)),
        mixedDigit_concat_length, last, Nat.mul_one]
      exact Nat.div_add_mod number size

/-- The sequence takes of each choice the element that the digit of the number at
the place of the choice numbers. -/
structure Takes (choices : List (List α)) (number : Nat) (sequence : List α) :
    Prop where
  length_eq : sequence.length = choices.length
  getElem?_eq : ∀ {place : Nat} {choice : List α}, choices[place]? = some choice →
    sequence[place]? = choice[mixedDigit (choices.map List.length) place number]?

/-- The sequences that go on from the same one stand together.  So dividing a number by
the size of the choice gives the number of the sequence that is followed, and leaves
that of the element that follows it. -/
theorem getElem?_extendAll (sequences : List (List α)) (choice : List α)
    (number : Nat) :
    (extendAll sequences choice)[number]? =
      sequences[number / choice.length]?.bind fun sequence =>
        choice[number % choice.length]?.map fun element =>
          sequence ++ [element] := by
  rw [extendAll]
  rcases Nat.eq_zero_or_pos choice.length with empty | inhabited
  · simp [List.eq_nil_of_length_eq_zero empty]
  induction sequences generalizing number with
  | nil => simp
  | cons sequence rest ih =>
      rw [List.flatMap_cons]
      rcases Nat.lt_or_ge number choice.length with inside | outside
      · rw [List.getElem?_append_left (by simpa using inside),
          Nat.div_eq_of_lt inside, Nat.mod_eq_of_lt inside]
        simp
      · rw [List.getElem?_append_right (by simpa using outside), List.length_map,
          ih, Nat.div_eq_sub_div inhabited outside, Nat.mod_eq_sub_mod outside,
          List.getElem?_cons_succ]

theorem takes_nil : Takes ([] : List (List α)) 0 [] where
  length_eq := rfl
  getElem?_eq missing := by simp at missing

theorem Takes.concat {choice sequence : List α} {element : α}
    (taken : Takes choices (number / choice.length) sequence)
    (next : choice[number % choice.length]? = some element) :
    Takes (choices ++ [choice]) number (sequence ++ [element]) where
  length_eq := by simp [taken.length_eq]
  getElem?_eq := by
    intro place chosen found
    rw [List.map_append, List.map_singleton]
    rcases Nat.lt_or_ge place choices.length with before | after
    · rw [List.getElem?_append_left before] at found
      rw [List.getElem?_append_left (taken.length_eq ▸ before),
        mixedDigit_concat_of_lt (by simpa using before)]
      exact taken.getElem?_eq found
    · have atEnd : place = choices.length := by
        have := (List.getElem?_eq_some_iff.mp found).1
        simp at this
        omega
      subst atEnd
      obtain rfl : choice = chosen := by simpa using found
      have digit := mixedDigit_concat_length (choices.map List.length)
        choice.length number
      rw [List.length_map] at digit
      rw [digit, next, ← taken.length_eq]
      simp

/-- After all choices, the sequence with a number takes the elements that the digits of
the number tell. -/
theorem exists_takes (small : number < (choices.map List.length).prod) :
    ∃ sequence, (choices.foldl extendAll [[]])[number]? = some sequence ∧
      Takes choices number sequence := by
  -- The induction goes as the sequences grow: the last choice is added last, and
  -- its size divides the number into that of a shorter sequence and a last digit.
  induction choices using List.reverseRecOn generalizing number with
  | nil =>
      obtain rfl : number = 0 := by simpa using small
      exact ⟨[], rfl, takes_nil⟩
  | append_singleton choices choice ih =>
      rw [List.map_append, List.map_singleton, List.prod_append,
        List.prod_singleton] at small
      have inhabited : 0 < choice.length :=
        Nat.pos_of_mul_pos_left (Nat.zero_lt_of_lt small)
      have smaller : number / choice.length < (choices.map List.length).prod :=
        Nat.div_lt_of_lt_mul (Nat.mul_comm _ choice.length ▸ small)
      obtain ⟨sequence, found, taken⟩ := ih smaller
      have next := List.getElem?_eq_getElem (Nat.mod_lt number inhabited)
      refine ⟨sequence ++ [_], ?_, taken.concat next⟩
      rw [List.foldl_concat, getElem?_extendAll, found, Option.bind_some, next]
      rfl

end Places

/-- There are as many selections from one or more choices as the product of their
sizes.  The selection with a number takes of each choice the element that the digit
of the number, in the mixed radix of the sizes, tells.  There is none if a choice is
empty or if there are no choices, and none occurs twice if no choice repeats an
element. -/
theorem selections_exact (choices : List (List α)) :
    (choices = [] → selections choices = []) ∧
    (choices ≠ [] →
      (selections choices).length = (choices.map List.length).prod ∧
      ∀ number < (choices.map List.length).prod,
        ((List.range choices.length).map fun place =>
          mixedDigit (choices.map List.length) place number *
            placeValue (choices.map List.length) place).sum = number ∧
        ∃ sequence, (selections choices)[number]? = some sequence ∧
          Takes choices number sequence) ∧
    ([] ∈ choices → selections choices = []) ∧
    ((∀ choice ∈ choices, choice.Nodup) → (selections choices).Nodup) := by
  refine ⟨?_, ?_, ?_, ?_⟩
  · rintro rfl
    rfl
  · intro nonempty
    refine ⟨?_, fun number small => ⟨?_, ?_⟩⟩
    · rw [selections_eq_tuples nonempty, length_tuples]
    · have denoted := sum_mixedDigit small
      rwa [List.length_map] at denoted
    · rw [selections, if_neg (by simpa using nonempty)]
      exact exists_takes small
  · intro member
    rw [selections_eq_tuples (List.ne_nil_of_mem member),
      ← List.length_eq_zero_iff, length_tuples]
    exact List.prod_eq_zero (List.mem_map_of_mem (f := List.length) member)
  · intro distinct
    rcases eq_or_ne choices [] with rfl | nonempty
    · exact List.nodup_nil
    · rw [selections_eq_tuples nonempty]
      exact nodup_tuples distinct

def fourChoices : List (List Nat) :=
  [[1], [2, 3], [4], [5, 6, 7]]

/-- The digits of the fifth number are 0, 1, 0 and 1. -/
theorem selections_exact_fourChoices :
    (selections fourChoices).length = 6 ∧
    (selections fourChoices)[4]? = some [1, 3, 4, 6] ∧
    Takes fourChoices 4 [1, 3, 4, 6] ∧
    (selections fourChoices).Nodup ∧
    selections ([] :: fourChoices) = [] ∧ selections ([] : List (List Nat)) = [] := by
  obtain ⟨-, counted, -, nodup⟩ := selections_exact fourChoices
  obtain ⟨length_eq, numbered⟩ := counted (by decide)
  obtain ⟨-, sequence, found, taken⟩ := numbered 4 (by decide)
  obtain rfl : sequence = [1, 3, 4, 6] := Option.some.inj (found.symm.trans rfl)
  exact ⟨length_eq, found, taken, nodup (by decide),
    (selections_exact ([] :: fourChoices)).2.2.1 (by decide),
    (selections_exact []).1 rfl⟩

end Constituency
