import Constituency.Proofs.Text.Lowercase
import Constituency.Proofs.Token.Word

/-!
# Blank characters between tokens

No word goes on across a blank character, so a blank character can stand between
two texts without changing the tokens of either.  The tokens of a sentence depend
on its parts between blank characters alone.
-/

namespace Constituency

namespace Token

open Text

variable {text rest before blanks after : List Char} {c : Char}

theorem isJoiner_of_isBlank (blank : isBlank c = true) : isJoiner c = false := by
  have checked : blankChars.all (!isJoiner ·) = true := by decide +kernel
  simpa using holds_of_isBlank checked blank

theorem splitWord_append_blank (blank : isBlank c = true)
    (text rest : List Char) :
    splitWord (text ++ c :: rest) =
      ((splitWord text).1, (splitWord text).2 ++ c :: rest) := by
  have notWord := isWordChar_of_isBlank blank
  have sameNext : ∀ tail : List Char,
      (tail ++ c :: rest).head?.any isWordChar = tail.head?.any isWordChar := by
    intro tail
    cases tail with
    | nil => simp [notWord]
    | cons d tail => rfl
  fun_induction splitWord text with
  | case1 => simp [splitWord, notWord, isJoiner_of_isBlank blank]
  | case2 d tail continues word after split ih =>
      rw [split] at ih
      rw [List.cons_append, splitWord, sameNext, if_pos continues, ih]
  | case3 d tail ends =>
      rw [List.cons_append, splitWord, sameNext, if_neg ends]

theorem words_append_blank (blank : isBlank c = true) (text rest : List Char) :
    words (text ++ c :: rest) = words text ++ words rest := by
  fun_induction words text with
  | case1 =>
      rw [List.nil_append, words, if_neg (by simp [isWordChar_of_isBlank blank])]
      rfl
  | case2 d tail isWord ih =>
      rw [List.cons_append, words, if_pos isWord,
        splitWord_append_blank blank, ih]
      rfl
  | case3 d tail notWord ih =>
      rw [List.cons_append, words, if_neg notWord, ih]

theorem words_lowercase_nil : words (lowercase []) = [] := by
  rw [lowercase, lowercaseAfter, words]

theorem words_lowercase_append (before after : List Char)
    (nonempty : blanks ≠ []) (blank : Blank blanks) :
    words (lowercase (before ++ (blanks ++ after))) =
      words (lowercase before) ++ words (lowercase after) := by
  induction blanks generalizing before with
  | nil => exact absurd rfl nonempty
  | cons c rest ih =>
      obtain ⟨first, others⟩ := List.forall_mem_cons.mp blank
      rw [List.cons_append, lowercase_append_blank first,
        words_append_blank first]
      cases rest with
      | nil => rfl
      | cons d rest =>
          have later := ih [] (List.cons_ne_nil _ _) others
          rw [List.nil_append, words_lowercase_nil, List.nil_append] at later
          rw [later]

theorem words_lowercase_eq_flatMap (text : List Char) :
    words (lowercase text) =
      (text.splitOnP isBlank).flatMap fun part => words (lowercase part) := by
  suffices ∀ before : List Char, (∀ c ∈ before, isBlank c = false) →
      words (lowercase (before ++ text)) =
        ((before ++ text).splitOnP isBlank).flatMap fun part =>
          words (lowercase part) from this [] (by simp)
  induction text with
  | nil =>
      intro before solid
      rw [List.append_nil, List.splitOnP_eq_singleton solid,
        List.flatMap_singleton]
  | cons c rest ih =>
      intro before solid
      cases blank : isBlank c with
      | true =>
          rw [lowercase_append_blank blank, words_append_blank blank,
            List.splitOnP_append_cons before rest blank,
            List.splitOnP_eq_singleton solid, List.flatMap_append,
            List.flatMap_singleton]
          exact congrArg _ (ih [] (by simp))
      | false =>
          have longer : ∀ d ∈ before ++ [c], isBlank d = false := by
            simpa [or_imp, forall_and, blank] using solid
          simpa using ih (before ++ [c]) longer

end Token

section Sentences

variable {blanks : String}

/-- Blank characters between two sentences part their tokens. -/
theorem tokenize_spaced (before after : String) (nonempty : blanks ≠ "")
    (blank : Text.Blank blanks.toList) :
    tokenize (before ++ blanks ++ after) =
      tokenize before ++ tokenize after := by
  have nonempty : blanks.toList ≠ [] := by simpa using nonempty
  simp only [tokenize, String.toList_append, List.append_assoc,
    Token.words_lowercase_append before.toList after.toList nonempty blank,
    List.filter_append, List.map_append]

theorem tokenize_empty : tokenize "" = [] := by
  simp [tokenize, Token.words_lowercase_nil]

theorem tokenize_append_blank (sentence : String)
    (blank : Text.Blank blanks.toList) :
    tokenize (sentence ++ blanks) = tokenize sentence := by
  rcases eq_or_ne blanks "" with rfl | nonempty
  · rw [String.append_empty]
  · have spaced := tokenize_spaced sentence "" nonempty blank
    rwa [String.append_empty, tokenize_empty, List.append_nil] at spaced

theorem tokenize_blank_append (sentence : String)
    (blank : Text.Blank blanks.toList) :
    tokenize (blanks ++ sentence) = tokenize sentence := by
  rcases eq_or_ne blanks "" with rfl | nonempty
  · rw [String.empty_append]
  · have spaced := tokenize_spaced "" sentence nonempty blank
    rwa [String.empty_append, tokenize_empty, List.nil_append] at spaced

theorem tokenize_trim (sentence : String) :
    tokenize (String.ofList (Text.trim sentence.toList)) =
      tokenize sentence := by
  obtain ⟨before, after, whole, beforeBlank, afterBlank⟩ :=
    Text.exists_trim sentence.toList
  calc
    tokenize (String.ofList (Text.trim sentence.toList)) =
        tokenize (String.ofList before ++
          (String.ofList (Text.trim sentence.toList) ++
            String.ofList after)) := by
      rw [tokenize_blank_append _ (by simpa using beforeBlank),
        tokenize_append_blank _ (by simpa using afterBlank)]
    _ = tokenize sentence := by
      rw [← String.ofList_append, ← String.ofList_append, ← whole,
        String.ofList_toList]

/-- Empty texts can be left out where nothing is made of them. -/
theorem flatMap_filter_ne_nil {α β : Type} [DecidableEq α]
    {make : List α → List β} (empty : make [] = []) (texts : List (List α)) :
    (texts.filter (· ≠ [])).flatMap make = texts.flatMap make := by
  induction texts with
  | nil => rfl
  | cons text rest ih =>
      by_cases isEmpty : text = []
      · simpa [isEmpty, empty] using ih
      · simpa [isEmpty] using ih

theorem tokenize_eq_flatMap_parts (sentence : String) :
    tokenize sentence =
      (Text.parts sentence.toList).flatMap fun part =>
        tokenize (String.ofList part) := by
  have noTokens : tokenize (String.ofList []) = [] := tokenize_empty
  rw [Text.parts, flatMap_filter_ne_nil noTokens]
  simp only [tokenize, String.toList_ofList]
  rw [Token.words_lowercase_eq_flatMap, List.filter_flatMap, List.map_flatMap]

/-- Blank characters part the tokens of what comes before them from those of what
follows them.  Where they stand otherwise does not matter: sentences with the same
parts between blank characters have the same tokens. -/
theorem tokenize_respects_blanks (before after : String) (nonempty : blanks ≠ "")
    (blank : Text.Blank blanks.toList) :
    tokenize (before ++ blanks ++ after) =
        tokenize before ++ tokenize after ∧
      ∀ first second : String,
        Text.parts first.toList = Text.parts second.toList →
        tokenize first = tokenize second := by
  refine ⟨tokenize_spaced before after nonempty blank, ?_⟩
  intro first second same
  rw [tokenize_eq_flatMap_parts first, same, ← tokenize_eq_flatMap_parts]

/-- A hyphen before blank characters joins nothing, and a sigma before them ends its
word. -/
theorem tokenize_respects_blanks_wordEnds :
    tokenize ("well- AΣ" ++ "\t\n" ++ "'worn") = ["well", "aς", "worn"] ∧
      tokenize "  well-\u2003AΣ 'worn " = ["well", "aς", "worn"] := by
  have nonempty : "\t\n" ≠ "" := by decide
  have blank : Text.Blank "\t\n".toList := by decide +kernel
  obtain ⟨between, same⟩ :=
    tokenize_respects_blanks "well- AΣ" "'worn" nonempty blank
  have before : tokenize "well- AΣ" = ["well", "aς"] := by decide +kernel
  have after : tokenize "'worn" = ["worn"] := by decide +kernel
  have spaced : tokenize ("well- AΣ" ++ "\t\n" ++ "'worn") =
      ["well", "aς", "worn"] := by
    rw [between, before, after]
    rfl
  refine ⟨spaced, ?_⟩
  rw [← spaced]
  exact same _ _ (by decide +kernel)

end Sentences

end Constituency
