import Constituency.Text.Basic
import Constituency.Text.Lowercase
import Constituency.Text.Word
import Mathlib.Data.List.TakeWhile

/-!
# Blank characters in a text

A blank character belongs to no word, has no case and is its own lower-case form.
Trimming takes nothing but blank characters off the two ends of a text.
-/

namespace Constituency.Text

def Blank (text : List Char) : Prop :=
  ∀ c ∈ text, isBlank c = true

/-- Only the characters of the text are gone through. -/
instance (text : List Char) : Decidable (Blank text) :=
  List.decidableBAll (isBlank · = true) text

def blankChars : List Char :=
  blankRanges.flatMap fun (first, last) =>
    (List.range' first (last + 1 - first)).map Char.ofNat

/-- The parts of a text between its blank characters.  None of them is empty. -/
def parts (text : List Char) : List (List Char) :=
  (text.splitOnP isBlank).filter (· ≠ [])

variable {text : List Char} {c : Char}

section Characters

theorem exists_range_of_inRanges {code : Nat} {ranges : List (Nat × Nat)}
    (member : inRanges code ranges = true) :
    ∃ range ∈ ranges, range.1 ≤ code ∧ code ≤ range.2 := by
  induction ranges with
  | nil => simp [inRanges] at member
  | cons range rest ih =>
      simp only [inRanges, Bool.and_eq_true, Bool.or_eq_true, decide_eq_true_eq]
        at member
      obtain ⟨firstLe, leLast | later⟩ := member
      · exact ⟨range, List.mem_cons_self, firstLe, leLast⟩
      · obtain ⟨other, otherMember, bounds⟩ := ih later
        exact ⟨other, List.mem_cons_of_mem _ otherMember, bounds⟩

theorem mem_blankChars (blank : isBlank c = true) : c ∈ blankChars := by
  obtain ⟨range, member, firstLe, leLast⟩ := exists_range_of_inRanges blank
  refine List.mem_flatMap.mpr ⟨range, member, ?_⟩
  refine List.mem_map.mpr ⟨c.toNat, ?_, Char.ofNat_toNat c⟩
  rw [List.mem_range'_1]
  omega

theorem holds_of_isBlank {holds : Char → Bool}
    (checked : blankChars.all holds = true) (blank : isBlank c = true) :
    holds c = true :=
  List.all_eq_true.mp checked c (mem_blankChars blank)

theorem isWordChar_of_isBlank (blank : isBlank c = true) :
    isWordChar c = false := by
  have checked : blankChars.all (!isWordChar ·) = true := by decide +kernel
  simpa using holds_of_isBlank checked blank

theorem isCased_of_isBlank (blank : isBlank c = true) : isCased c = false := by
  have checked : blankChars.all (!isCased ·) = true := by decide +kernel
  simpa using holds_of_isBlank checked blank

theorem isCaseIgnorable_of_isBlank (blank : isBlank c = true) :
    isCaseIgnorable c = false := by
  have checked : blankChars.all (!isCaseIgnorable ·) = true := by decide +kernel
  simpa using holds_of_isBlank checked blank

theorem lowerChar_of_isBlank (blank : isBlank c = true) :
    lowerChar c = [c] := by
  have checked : blankChars.all (fun d => lowerChar d = [d]) = true := by
    decide +kernel
  simpa using holds_of_isBlank checked blank

end Characters

section Trim

theorem blank_takeWhile (text : List Char) :
    Blank (text.takeWhile isBlank) :=
  fun _ member => List.mem_takeWhile_imp member

/-- A text is what is left of it by trimming, between blank characters. -/
theorem exists_trim (text : List Char) :
    ∃ before after, text = before ++ (trim text ++ after) ∧
      Blank before ∧ Blank after := by
  let rest := (text.dropWhile isBlank).reverse
  refine ⟨text.takeWhile isBlank, (rest.takeWhile isBlank).reverse, ?_,
    blank_takeWhile text, ?_⟩
  · have whole : trim text ++ (rest.takeWhile isBlank).reverse =
        text.dropWhile isBlank := by
      rw [trim, ← List.reverse_append, List.takeWhile_append_dropWhile,
        List.reverse_reverse]
    rw [whole, List.takeWhile_append_dropWhile]
  · intro c member
    exact blank_takeWhile rest c (List.mem_reverse.mp member)

end Trim

end Constituency.Text
