import Constituency.Proofs.Token.Spacing

/-!
# The tokens of tokens

A token by itself is a sentence with no other token: it is a word of lower-case
forms, and splitting a word off goes on to its end.  So the tokens of a sentence are
found again in the text in which they stand with blank characters between them.
-/

namespace Constituency

namespace Token

open Text

variable {text word letters : List Char}

theorem WordForm.head (form : WordForm text) :
    text.head?.any isWordChar = true := by
  cases form with
  | @run letters nonempty inside =>
      obtain ⟨c, rest, rfl⟩ := List.exists_cons_of_ne_nil nonempty
      simpa using inside c List.mem_cons_self
  | @joined letters rest joiner nonempty inside =>
      obtain ⟨c, others, rfl⟩ := List.exists_cons_of_ne_nil nonempty
      simpa using inside c List.mem_cons_self

theorem splitWord_letters_append (inside : ∀ c ∈ letters, isWordChar c = true)
    (rest : List Char) :
    splitWord (letters ++ rest) =
      (letters ++ (splitWord rest).1, (splitWord rest).2) := by
  induction letters with
  | nil => rfl
  | cons c letters ih =>
      obtain ⟨isWord, others⟩ := List.forall_mem_cons.mp inside
      rw [List.cons_append, splitWord, if_pos (by simp [isWord]), ih others]
      rfl

theorem WordForm.splitWord_eq (form : WordForm text) :
    splitWord text = (text, []) := by
  induction form with
  | @run letters nonempty inside =>
      simpa [splitWord] using splitWord_letters_append inside []
  | @joined letters rest joiner nonempty inside joins following ih =>
      rw [splitWord_letters_append inside, splitWord,
        if_pos (by simp [joins, following.head]), ih]

theorem WordForm.words_eq (form : WordForm text) : words text = [text] := by
  obtain ⟨c, rest, rfl⟩ := List.exists_cons_of_ne_nil form.ne_nil
  have isWord : isWordChar c = true := by simpa using form.head
  have whole := form.splitWord_eq
  rw [splitWord, if_pos (by simp [isWord])] at whole
  obtain ⟨wordEq, afterEq⟩ := Prod.mk.inj whole
  rw [words, if_pos isWord, wordEq, afterEq, words]

theorem wordForm_of_mem_words (member : word ∈ words text) :
    WordForm word ∧ ∀ c ∈ word, c ∈ text := by
  fun_induction words text with
  | case1 => cases member
  | case2 c rest isWord ih =>
      have whole := splitWord_append rest
      rcases List.mem_cons.mp member with rfl | later
      · refine ⟨(wordForm_splitWord rest).1 c isWord, fun d inside => ?_⟩
        rw [← whole, ← List.cons_append]
        exact List.mem_append_left _ inside
      · obtain ⟨form, inside⟩ := ih later
        refine ⟨form, fun d dMember => List.mem_cons_of_mem c ?_⟩
        rw [← whole]
        exact List.mem_append_right _ (inside d dMember)
  | case3 c rest notWord ih =>
      obtain ⟨form, inside⟩ := ih member
      exact ⟨form, fun d dMember => List.mem_cons_of_mem c (inside d dMember)⟩

end Token

variable {sentence token blanks : String} {tokens : List String}

theorem tokenize_of_mem (member : token ∈ tokenize sentence) :
    tokenize token = [token] := by
  obtain ⟨word, kept, rfl⟩ := List.mem_map.mp member
  obtain ⟨found, lettered⟩ := List.mem_filter.mp kept
  obtain ⟨form, inside⟩ := Token.wordForm_of_mem_words found
  have lowered : Text.lowercase word = word :=
    Text.lowercaseAfter_of_lowered
      (fun c cMember => Text.lowerChar_of_mem_lowercaseAfter (inside c cMember))
      []
  rw [tokenize, String.toList_ofList, lowered, form.words_eq]
  simp [lettered]

theorem tokenize_intercalate (nonempty : blanks ≠ "")
    (blank : Text.Blank blanks.toList)
    (single : ∀ token ∈ tokens, tokenize token = [token]) :
    tokenize (blanks.intercalate tokens) = tokens := by
  induction tokens with
  | nil => simp [tokenize, Token.words_lowercase_nil]
  | cons token rest ih =>
      obtain ⟨tokenSingle, restSingle⟩ := List.forall_mem_cons.mp single
      cases rest with
      | nil => rw [String.intercalate_singleton, tokenSingle]
      | cons next others =>
          rw [String.intercalate_cons_cons,
            tokenize_spaced token _ nonempty blank, tokenSingle, ih restSingle]
          rfl

/-- The tokens of a sentence are found again in the text in which they stand with
single spaces between them. -/
theorem tokenize_intercalate_tokenize (sentence : String) :
    tokenize (" ".intercalate (tokenize sentence)) = tokenize sentence :=
  tokenize_intercalate (by decide) (by decide)
    fun _ member => tokenize_of_mem member

end Constituency
