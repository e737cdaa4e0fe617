import Constituency.Text.Basic
import Mathlib.Data.List.Induction
import Mathlib.Data.Nat.Digits.Defs

/-!
# Decimal numerals and their values

A numeral consists of one or more decimal digits, with at most a plus sign before
them.  What is read from a text is the value of the text as a numeral, if it is one
and its value is within the bound.
-/

namespace Constituency.Text

def digitValue (digit : Char) : Nat :=
  digit.toNat - '0'.toNat

/-- The text is a numeral of the value. -/
def Numeral (text : List Char) (value : Nat) : Prop :=
  ∃ sign digits, text = sign ++ digits ∧ (sign = [] ∨ sign = ['+']) ∧
    digits ≠ [] ∧ (∀ digit ∈ digits, digit.isDigit = true) ∧
    value = Nat.ofDigits 10 (digits.reverse.map digitValue)

/-- The most significant digit is read first. -/
theorem digitsValue_eq_ofDigits (digits : List Char) :
    digitsValue digits = Nat.ofDigits 10 (digits.reverse.map digitValue) := by
  induction digits using List.reverseRecOn with
  | nil => rfl
  | append_singleton digits digit ih =>
      rw [digitsValue] at ih ⊢
      rw [List.foldl_append, List.foldl_cons, List.foldl_nil, ih,
        List.reverse_append, List.reverse_singleton, List.singleton_append,
        List.map_cons, Nat.ofDigits_cons, digitValue]
      exact Nat.add_comm ..

private theorem read_digits_iff {bound value : Nat} {digits : List Char} :
    (if digits.isEmpty || !digits.all Char.isDigit then
        none
      else if digitsValue digits ≤ bound then
        some (digitsValue digits)
      else
        none) = some value ↔
      (digits ≠ [] ∧ (∀ digit ∈ digits, digit.isDigit = true) ∧
        value = Nat.ofDigits 10 (digits.reverse.map digitValue)) ∧
        value ≤ bound := by
  have refused_iff : (digits.isEmpty || !digits.all Char.isDigit) = true ↔
      ¬ (digits ≠ [] ∧ ∀ digit ∈ digits, digit.isDigit = true) := by
    simp only [Bool.or_eq_true, List.isEmpty_iff, Bool.not_eq_true',
      ← Bool.not_eq_true, List.all_eq_true]
    tauto
  rw [← digitsValue_eq_ofDigits]
  split
  · rename_i refused
    have notDigits := refused_iff.mp refused
    constructor
    · intro read
      cases read
    · rintro ⟨⟨nonempty, digit, _⟩, _⟩
      exact absurd ⟨nonempty, digit⟩ notDigits
  · rename_i accepted
    have isDigits := not_not.mp (accepted ∘ refused_iff.mpr)
    split
    · rename_i within
      rw [Option.some.injEq]
      constructor
      · rintro rfl
        exact ⟨⟨isDigits.1, isDigits.2, rfl⟩, within⟩
      · rintro ⟨⟨_, _, rfl⟩, _⟩
        rfl
    · rename_i exceeds
      constructor
      · intro read
        cases read
      · rintro ⟨⟨_, _, rfl⟩, within⟩
        exact absurd within exceeds

/-- What is read is the value of a numeral within the bound. -/
theorem readDecimal?_eq_some_iff {bound value : Nat} {text : List Char} :
    readDecimal? bound text = some value ↔
      Numeral text value ∧ value ≤ bound := by
  unfold readDecimal?
  dsimp only
  split
  · rename_i digits
    refine read_digits_iff.trans (and_congr_left fun _ => ⟨?_, ?_⟩)
    · intro isDigits
      exact ⟨['+'], digits, rfl, .inr rfl, isDigits⟩
    · rintro ⟨sign, other, whole, rfl | rfl, isDigits⟩
      · -- A plus sign is no digit.
        have plus : '+' ∈ other := by
          rw [List.nil_append] at whole
          exact whole ▸ List.mem_cons_self
        cases isDigits.2.1 '+' plus
      · cases whole
        exact isDigits
  · rename_i unsigned
    refine read_digits_iff.trans (and_congr_left fun _ => ⟨?_, ?_⟩)
    · intro isDigits
      exact ⟨[], text, rfl, .inl rfl, isDigits⟩
    · rintro ⟨sign, digits, rfl, rfl | rfl, isDigits⟩
      · exact isDigits
      · exact absurd rfl (unsigned digits)

example : readDecimal? 255 "+0255".toList = some 255 := by decide +kernel

end Constituency.Text
