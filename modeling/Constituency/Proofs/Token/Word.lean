import Constituency.Token

/-!
# The form of a word

A word consists of runs of word characters with single joiners between them.  What
is split off from a text is such a word, and it goes on as far as it can: what
follows neither begins with a word character nor with a joiner before one.  Texts
with this property are apart from the word on their left.  Read backwards, a text
can also be apart from a word on its right.
-/

namespace Constituency

namespace Token

open Text

def IsLetter (c : Char) : Prop :=
  'a' ≤ c ∧ c ≤ 'z'

instance (c : Char) : Decidable (IsLetter c) :=
  inferInstanceAs (Decidable (_ ∧ _))

/-- Runs of word characters with single joiners between them. -/
inductive WordForm : List Char → Prop
  | run {letters : List Char} (nonempty : letters ≠ [])
      (inside : ∀ c ∈ letters, isWordChar c = true) : WordForm letters
  | joined {letters rest : List Char} {joiner : Char}
      (nonempty : letters ≠ [])
      (inside : ∀ c ∈ letters, isWordChar c = true)
      (joins : isJoiner joiner = true) (following : WordForm rest) :
      WordForm (letters ++ joiner :: rest)

/-- No word character begins the text, and none stands after a single joiner that
begins it. -/
structure Apart (text : List Char) : Prop where
  no_wordChar : ∀ c, text[0]? = some c → isWordChar c = false
  no_joined : ∀ joiner c, text[0]? = some joiner → isJoiner joiner = true →
    text[1]? = some c → isWordChar c = false

variable {c joiner : Char} {letters rest text : List Char}

section Characters

theorem isLower_iff : c.isLower = true ↔ IsLetter c := by
  have bounds : c.isLower =
      (decide ('a'.val ≤ c.val) && decide (c.val ≤ 'z'.val)) := rfl
  rw [bounds, Bool.and_eq_true, decide_eq_true_eq, decide_eq_true_eq]
  rfl

theorem IsLetter.isWordChar (letter : IsLetter c) : isWordChar c = true := by
  have bounds : 0x61 ≤ c.toNat ∧ c.toNat ≤ 0x7A := letter
  obtain ⟨others, table⟩ : ∃ others, wordRanges =
      (0x30, 0x39) :: (0x41, 0x5A) :: (0x5F, 0x5F) :: (0x61, 0x7A) :: others :=
    ⟨_, rfl⟩
  rw [Text.isWordChar, table]
  simp only [inRanges, Bool.and_eq_true, Bool.or_eq_true, decide_eq_true_eq]
  omega

theorem isWordChar_of_isJoiner (joins : isJoiner c = true) :
    isWordChar c = false := by
  have cases : c = '\x27' ∨ c = '’' ∨ c = '-' := by
    simpa [isJoiner, or_assoc] using joins
  rcases cases with rfl | rfl | rfl <;> decide +kernel

end Characters

section Form

theorem WordForm.ne_nil (form : WordForm text) : text ≠ [] := by
  cases form with
  | run nonempty inside => exact nonempty
  | joined nonempty inside joins following => simp

theorem WordForm.cons (isWord : isWordChar c = true) (form : WordForm text) :
    WordForm (c :: text) := by
  cases form with
  | run nonempty inside =>
      exact .run (List.cons_ne_nil _ _)
        (List.forall_mem_cons.mpr ⟨isWord, inside⟩)
  | joined nonempty inside joins following =>
      exact .joined (List.cons_ne_nil _ _)
        (List.forall_mem_cons.mpr ⟨isWord, inside⟩) joins following

theorem WordForm.singleton (isWord : isWordChar c = true) : WordForm [c] :=
  .run (List.cons_ne_nil _ _) (by simpa using isWord)

theorem WordForm.cons_joiner (isWord : isWordChar c = true)
    (joins : isJoiner joiner = true) (form : WordForm text) :
    WordForm (c :: joiner :: text) :=
  .joined (List.cons_ne_nil c []) (by simpa using isWord) joins form

theorem apart_nil : Apart [] :=
  ⟨by simp, by simp⟩

end Form

section Split

theorem splitWord_append (text : List Char) :
    (splitWord text).1 ++ (splitWord text).2 = text := by
  fun_induction splitWord text with
  | case1 => rfl
  | case2 c rest continues word after split ih =>
      rw [split] at ih
      rw [List.cons_append, ih]
  | case3 => rfl

theorem apart_splitWord (text : List Char) : Apart (splitWord text).2 := by
  fun_induction splitWord text with
  | case1 => exact apart_nil
  | case2 c rest continues word after split ih => rwa [split] at ih
  | case3 c rest ends =>
      rw [Bool.not_eq_true, Bool.or_eq_false_iff, Bool.and_eq_false_imp] at ends
      obtain ⟨notWord, notJoined⟩ := ends
      constructor
      · intro first found
        obtain rfl := Option.some.inj found
        exact notWord
      · intro joiner next found joins nextFound
        obtain rfl := Option.some.inj found
        have headFound : rest.head? = some next := by
          rwa [List.head?_eq_getElem?]
        simpa [headFound] using notJoined joins

/-- What is split off makes a word with a word character before it, and by itself
if it begins with one. -/
theorem wordForm_splitWord (text : List Char) :
    (∀ before, isWordChar before = true →
        WordForm (before :: (splitWord text).1)) ∧
      (text.head?.any isWordChar = true → WordForm (splitWord text).1) := by
  fun_induction splitWord text with
  | case1 => exact ⟨fun before isWord => .singleton isWord, by simp⟩
  | case2 c rest continues word after split ih =>
      rw [split] at ih
      obtain ⟨preceded, alone⟩ := ih
      rw [Bool.or_eq_true, Bool.and_eq_true] at continues
      rcases continues with isWord | ⟨joins, begins⟩
      · exact ⟨fun before beforeWord => .cons beforeWord (preceded c isWord),
          fun _ => preceded c isWord⟩
      · refine ⟨fun before beforeWord =>
          .cons_joiner beforeWord joins (alone begins), fun isWord => ?_⟩
        simp [isWordChar_of_isJoiner joins] at isWord
  | case3 c rest ends =>
      refine ⟨fun before isWord => .singleton isWord, fun isWord => ?_⟩
      simp [show isWordChar c = true from isWord] at ends

end Split

end Token

end Constituency
